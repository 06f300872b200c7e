import DocumentQuery.Proofs.Pattern.Scanner
import Mathlib.Order.Monotone.Basic

/-!
# A scanner advances within its window

* `within_after` — the position never leaves the window, nor does any position that is kept.
* `pos_le_after`, `pos_lt_after_of_key` — the position never goes back, and every point where a key
  is due is left behind.
* `isEnd_after` — a scanner comes to an end.  Either the position goes on, or the phase changes to
  one of a lower rank.  So the weight of a point, which counts twice what is left and adds the rank
  of the phase, becomes less in every move.
* `Agrees.after_eq` — texts that agree inside a window are scanned by the same moves.
-/

namespace DocumentQuery

namespace Pattern

/-! ## Positions -/

/-- The positions that a phase keeps lie in the window, and behind them something has been read. -/
def Phase.Within (w : Window) (pos : Nat) : Phase → Prop
  | .bare first | .quoted first _ | .escape first _ => w.start ≤ first ∧ first < pos
  | .dot => w.start < pos
  | .fault _ place => w.start ≤ place ∧ place ≤ w.stop
  | _ => True

/-- All positions of a point lie in the window. -/
structure Point.Within (w : Window) (p : Point) : Prop where
  start_le : w.start ≤ p.pos
  le_stop : p.pos ≤ w.stop
  phase : p.phase.Within w p.pos

/-- A token ends before the bracket that is found. -/
theorem bounds_of_find? {w : Window} {pos close : Nat}
    (h : w.find? (.char ']') (pos + 1) = some close) :
    pos < close ∧ close < w.stop ∧
      pos + 1 + (PositionForm.begun (w.slice (pos + 1) close)).length ≤ close := by
  obtain ⟨hle, hlt, -⟩ := Window.rest_of_find? h
  have hbegun := PositionForm.length_begun_le (w.slice (pos + 1) close)
  rw [Window.length_slice hle (Nat.le_of_lt hlt)] at hbegun
  omega

namespace Move

variable {w : Window} {p q : Point}

theorem pos_le (h : Move w p q) : p.pos ≤ q.pos := by
  cases h with
  | index hat hclose | longIndex hat hclose =>
      have := bounds_of_find? hclose
      dsimp only
      omega
  | _ => simp

theorem within (h : Move w p q) (hp : p.Within w) : q.Within w := by
  obtain ⟨hstart, hstop, hphase⟩ := hp
  cases h with
  | openQuote hat | beginBare hat =>
      exact ⟨Nat.le_succ_of_le hstart, Window.lt_stop_of_at? hat, hstart, Nat.lt_succ_self _⟩
  | prolongBare hat | backslash hat | plain hat | escaped hat =>
      exact ⟨Nat.le_succ_of_le hstart, Window.lt_stop_of_at? hat, hphase.1,
        Nat.lt_succ_of_lt hphase.2⟩
  | closeQuote hat => exact ⟨Nat.le_succ_of_le hstart, Window.lt_stop_of_at? hat, trivial⟩
  | dot hat => exact ⟨Nat.le_succ_of_le hstart, Window.lt_stop_of_at? hat, Nat.lt_succ_of_le hstart⟩
  | unescaped hat => exact ⟨hstart, hstop, hphase⟩
  | endBare hat | finish hat | due hat => exact ⟨hstart, hstop, trivial⟩
  | noKey hat | openBracket hat | stray hat => exact ⟨hstart, hstop, hstart, hstop⟩
  | openEnd hat =>
      have := hphase.2
      exact ⟨hstart, hstop, hphase.1, by omega⟩
  | lastDot hat =>
      exact ⟨hstart, hstop, Nat.le_sub_one_of_lt hphase, Nat.le_trans (Nat.sub_le _ _) hstop⟩
  | index hat hclose | longIndex hat hclose =>
      have := bounds_of_find? hclose
      exact ⟨by dsimp only at *; omega, by dsimp only at *; omega, trivial⟩
  | badToken hat hclose htoken =>
      have := bounds_of_find? hclose
      exact ⟨hstart, hstop, by dsimp only at *; omega, by dsimp only at *; omega⟩

/-- From a point where a key is due, the scanner goes on or comes to an end. -/
theorem pos_lt_of_key (h : Move w p q) (hp : p.phase = .key) (hq : q.phase.isEnd = false) :
    p.pos < q.pos := by
  cases h with
  | openQuote | beginBare => exact Nat.lt_succ_self _
  | noKey => cases hq
  | _ => cases hp

/-- Two brackets and at least one digit are read at once. -/
theorem pos_add_three_le (h : Move w p q) (hp : p.phase = .behind) (hq : q.phase = .behind) :
    p.pos + 3 ≤ q.pos := by
  cases h with
  | @index pos _ close form hat hclose htoken =>
      obtain ⟨hle, hlt, -⟩ := Window.rest_of_find? hclose
      have hlength := congrArg List.length (PositionForm.sign_append_of_ofToken? htoken)
      have hdigits : 0 < form.digits.length := List.length_pos_iff.mpr form.hne
      rw [List.length_append, Window.length_slice hle (Nat.le_of_lt hlt)] at hlength
      dsimp only
      omega
  | finish | longIndex | openBracket | badToken | dot | stray => cases hq
  | _ => cases hp

end Move

/-! ## The end -/

/-- How many moves may follow in a phase before the position goes on. -/
def Phase.rank : Phase → Nat
  | .bare _ | .escape _ _ | .dot => 2
  | .key | .quoted _ _ | .behind => 1
  | .read | .fault _ _ | .limit _ => 0

/-- A bound on the number of moves from a point on. -/
def Point.weight (w : Window) (p : Point) : Nat :=
  2 * (w.stop - p.pos) + p.phase.rank

theorem Move.weight_lt {w : Window} {p q : Point} (h : Move w p q) : q.weight w < p.weight w := by
  unfold Point.weight
  cases h with
  | openQuote hat | beginBare hat | prolongBare hat | closeQuote hat | backslash hat | plain hat
  | escaped hat | dot hat =>
      have := Window.lt_stop_of_at? hat
      simp only [Phase.rank]
      omega
  | index hat hclose | longIndex hat hclose =>
      have := bounds_of_find? hclose
      simp only [Phase.rank]
      omega
  | _ => simp only [Phase.rank]; omega

namespace Window

variable {w : Window}

theorem within_next {p : Point} (h : p.Within w) : (w.next p).Within w := by
  cases hend : p.phase.isEnd with
  | true => rwa [next_of_isEnd hend]
  | false => exact (move_next w hend).within h

/-- The scanner never leaves its window. -/
theorem within_after (w : Window) (moves : Nat) : (w.after moves).Within w := by
  induction moves with
  | zero => exact ⟨Nat.le_refl _, Nat.le_of_lt w.hstart, trivial⟩
  | succ moves ih =>
      rw [after_succ]
      exact within_next ih

theorem move_after {n : Nat} (h : (w.after n).phase.isEnd = false) :
    Move w (w.after n) (w.after (n + 1)) := by
  rw [after_succ]
  exact move_next w h

/-- What holds where a scanner begins and is kept by every move holds at all points of a run. -/
theorem after_induction {P : Point → Prop} (horigin : P w.origin)
    (hmove : ∀ {p q : Point}, p.Within w → Move w p q → P p → P q) (moves : Nat) :
    P (w.after moves) := by
  induction moves with
  | zero => exact horigin
  | succ moves ih =>
      cases hend : (w.after moves).phase.isEnd with
      | true => rwa [after_succ, next_of_isEnd hend]
      | false => exact hmove (within_after w moves) (move_after hend) ih

theorem pos_le_next (w : Window) (p : Point) : p.pos ≤ (w.next p).pos := by
  cases hend : p.phase.isEnd with
  | true => rw [next_of_isEnd hend]
  | false => exact (move_next w hend).pos_le

/-- The scanner never goes back. -/
theorem pos_le_after (w : Window) {m n : Nat} (h : m ≤ n) : (w.after m).pos ≤ (w.after n).pos := by
  refine monotone_nat_of_le_succ (f := fun moves => (w.after moves).pos) (fun moves => ?_) h
  rw [after_succ]
  exact pos_le_next w _

/-- An end is not left again. -/
theorem isEnd_after_of_le {m n : Nat} (h : m ≤ n) (hm : (w.after m).phase.isEnd = true) :
    (w.after n).phase.isEnd = true := by
  induction h with
  | refl => exact hm
  | step _ ih => rwa [after_succ, next_of_isEnd ih]

theorem isEnd_after_eq_false_of_le {m n : Nat} (h : m ≤ n)
    (hn : (w.after n).phase.isEnd = false) : (w.after m).phase.isEnd = false := by
  by_contra hend
  rw [Bool.not_eq_false] at hend
  rw [isEnd_after_of_le h hend] at hn
  cases hn

/-- A point where a key is due is left behind by every later point that is no end. -/
theorem pos_lt_after_of_key {m n : Nat} (h : m < n) (hm : (w.after m).phase = .key)
    (hn : (w.after n).phase.isEnd = false) : (w.after m).pos < (w.after n).pos := by
  -- Where no key begins, the next point is an end, and no later point would be any other.
  have hgoes : (w.after (m + 1)).phase.isEnd = false := isEnd_after_eq_false_of_le h hn
  have hmove : Move w (w.after m) (w.after (m + 1)) := move_after (by rw [hm]; rfl)
  exact Nat.lt_of_lt_of_le (hmove.pos_lt_of_key hm hgoes) (pos_le_after w h)

/-- Every move up to a point that is no end has used up some weight. -/
theorem weight_after (w : Window) (moves : Nat) (h : (w.after moves).phase.isEnd = false) :
    (w.after moves).weight w + moves ≤ w.origin.weight w := by
  induction moves with
  | zero => exact Nat.le_refl _
  | succ moves ih =>
      have hgoes := isEnd_after_eq_false_of_le (Nat.le_succ moves) h
      have hless := (move_after hgoes).weight_lt
      have := ih hgoes
      omega

/-- The number of moves within which the scanner comes to an end. -/
def bound (w : Window) : Nat :=
  2 * (w.stop - w.start) + 1

theorem isEnd_after (w : Window) : (w.after w.bound).phase.isEnd = true := by
  by_contra hend
  rw [Bool.not_eq_true] at hend
  have hweight := weight_after w w.bound hend
  have hrank : 0 < (w.after w.bound).phase.rank := by
    cases hphase : (w.after w.bound).phase with
    | read | fault fault place | limit e => rw [hphase] at hend; cases hend
    | _ => simp [Phase.rank]
  simp only [Point.weight, origin, Phase.rank, bound] at hweight hrank
  omega

/-! ## What is not looked at -/

/-- Two windows have the same bounds, and their texts agree between them. -/
structure Agrees (v w : Window) : Prop where
  start_eq : v.start = w.start
  stop_eq : v.stop = w.stop
  text_eq : ∀ i, w.start ≤ i → i < w.stop → v.text[i]? = w.text[i]?

namespace Agrees

variable {v w : Window} {pos first last : Nat}

theorem at?_eq (h : v.Agrees w) (hpos : w.start ≤ pos) : v.at? pos = w.at? pos := by
  rw [at?, at?, h.stop_eq]
  split
  · rename_i hstop
    exact h.text_eq pos hpos hstop
  · rfl

theorem slice_eq (h : v.Agrees w) (hfirst : w.start ≤ first) (hlast : last ≤ w.stop) :
    v.slice first last = w.slice first last := by
  apply List.ext_getElem?
  intro i
  rw [slice, slice, List.getElem?_drop, List.getElem?_drop, List.getElem?_take, List.getElem?_take]
  split
  · exact h.text_eq _ (by omega) (by omega)
  · rfl

theorem find?_eq (h : v.Agrees w) (c : CodePoint) (hpos : w.start ≤ pos) :
    v.find? c pos = w.find? c pos := by
  fun_induction find? w c pos with
  | case1 pos hnone => exact find?_of_at?_eq_none ((h.at?_eq hpos).trans hnone)
  | case2 pos hfound =>
      rw [find?_of_at?_eq_some ((h.at?_eq hpos).trans hfound), if_pos rfl]
  | case3 pos d hfound hne ih =>
      rw [find?_of_at?_eq_some ((h.at?_eq hpos).trans hfound), if_neg hne]
      exact ih (Nat.le_succ_of_le hpos)

theorem nextIndex_eq (h : v.Agrees w) {p : Point} (hp : p.Within w) :
    v.nextIndex p = w.nextIndex p := by
  have hstart : w.start ≤ p.pos + 1 := Nat.le_succ_of_le hp.start_le
  rw [nextIndex, nextIndex, h.find?_eq _ hstart]
  split
  · rfl
  · rename_i close hclose
    have hlt := (rest_of_find? hclose).2.1
    rw [h.slice_eq hstart (Nat.le_of_lt hlt)]

/-- A move depends on nothing outside the window. -/
theorem next_eq (h : v.Agrees w) {p : Point} (hp : p.Within w) : v.next p = w.next p := by
  -- Only the end of a bare key takes a slice that begins before the position.
  rw [next, next, h.at?_eq hp.start_le, h.nextIndex_eq hp]
  split
  case h_2 first hphase =>
    have hfirst : w.start ≤ first := by
      have hwithin := hp.phase
      rw [hphase] at hwithin
      exact hwithin.1
    rw [h.slice_eq hfirst hp.le_stop]
  all_goals rfl

/-- Texts that agree inside the window are scanned by the same moves. -/
theorem after_eq (h : v.Agrees w) (moves : Nat) : v.after moves = w.after moves := by
  induction moves with
  | zero =>
      change v.origin = w.origin
      rw [origin, origin, h.start_eq]
  | succ moves ih => rw [after_succ, after_succ, ih, h.next_eq (within_after w moves)]

end Agrees

end Window

end Pattern

end DocumentQuery
