import DocumentQuery.Proofs.Addressing
import DocumentQuery.Proofs.Pattern.Joining

/-!
# Walks in two parts

A pattern in two parts can be applied part by part: the second one is applied to what the first one
selects.  What is told about an obstacle differs in the path alone.  The second walk knows nothing
of the steps before it, so its path begins where it began; `WalkError.behind` puts those steps in
front.

* `walk_behind` — a walk depends on the steps before it only through the paths in its errors.
* `navigate_composes` — walks compose, whether they succeed or fail.
* `extract_composes` — so do the texts of patterns, with a dot between them.
-/

namespace DocumentQuery

theorem mapError_eq_ok_iff {α ε ε' : Type} {outcome : Except ε α} {f : ε → ε'} {a : α} :
    outcome.mapError f = .ok a ↔ outcome = .ok a := by
  cases outcome with
  | error e => exact ⟨nofun, nofun⟩
  | ok found =>
      change Except.ok found = Except.ok a ↔ _
      rw [Except.ok.injEq, Except.ok.injEq]

/-- The error of a walk that began where the steps of `p` had led. -/
def WalkError.behind (p : Pattern) : WalkError → WalkError
  | .blocked e => .blocked ⟨p ++ e.path, e.obstacle⟩
  | .unsupported type => .unsupported type
  | .limit e => .limit e
  | .unknownStep spelling => .unknownStep spelling

/-- The steps before an obstacle are told, and decide nothing. -/
theorem blockedAt_append (front path : List Step) (obstacle : Obstacle) :
    blockedAt (front ++ path) obstacle = (blockedAt path obstacle).behind ⟨front⟩ := by
  cases obstacle with
  | outOfBounds position length =>
      by_cases hwritable : Numeral.isWritable position = true
      · simp only [blockedAt, if_pos hwritable]
        rfl
      · simp only [blockedAt, if_neg hwritable]
        rfl
  | _ => rfl

namespace Value

/-! ## Walks behind other steps -/

theorem follow_behind (front path : List Step) (v : Value) (step : Step) :
    v.follow (front ++ path) step = (v.follow path step).mapError (WalkError.behind ⟨front⟩) := by
  cases hkind : v.kind with
  | error type =>
      rw [follow, follow, hkind]
      rfl
  | ok kind =>
      by_cases hne : kind ≠ step.container
      · rw [follow_of_ne_container _ hkind hne, follow_of_ne_container _ hkind hne,
          blockedAt_append]
        rfl
      rw [not_not] at hne
      subst hne
      cases step with
      | field name =>
          obtain ⟨entries, rfl⟩ := exists_table_of_kind hkind
          rw [follow_field_table, follow_field_table, blockedAt_append]
          cases entries.lookup name <;> rfl
      | index position =>
          obtain ⟨form, items, rfl⟩ := exists_array_of_kind hkind
          rw [follow_index_array, follow_index_array, blockedAt_append]
          cases (if 0 ≤ position then items[position.toNat]? else none) <;> rfl

/-- A walk behind other steps takes the same way and is blocked by the same obstacle. -/
theorem walk_behind (front path : List Step) (v : Value) (steps : List Step) :
    walk (front ++ path) v steps =
      (walk path v steps).mapError (WalkError.behind ⟨front⟩) := by
  -- With each step that is taken, both paths grow by this step at their ends.
  induction steps generalizing path v with
  | nil => rfl
  | cons step rest ih =>
      rw [walk, walk, follow_behind]
      cases v.follow path step with
      | error e => rfl
      | ok child =>
          change walk (front ++ path ++ [step]) child rest =
            (walk (path ++ [step]) child rest).mapError (WalkError.behind ⟨front⟩)
          rw [List.append_assoc, ih]

/-- What two patterns one after the other select is what the second one selects from what the first
one selects. -/
theorem navigate_append (root : Value) (p q : Pattern) :
    root.navigate (p ++ q) =
      (root.navigate p).bind fun reached => (reached.navigate q).mapError (WalkError.behind p) := by
  have hbehind (reached : Value) : walk p.steps reached q.steps =
      (reached.navigate q).mapError (WalkError.behind p) := by
    have hwalk := walk_behind p.steps [] reached q.steps
    rwa [List.append_nil] at hwalk
  rw [navigate, Pattern.steps_append, walk_append, List.nil_append]
  simp only [hbehind]
  rfl

/-- **Walks compose.**  Where the steps of `p` lead somewhere, those of `q` behind them lead where
they lead from there, or meet there what they meet without `p`: the same obstacle, with the steps of
`p` at the beginning of its path.  Where the steps of `p` lead nowhere, no steps behind them change
the error. -/
theorem navigate_composes (root : Value) (p q : Pattern) :
    (∀ reached, root.navigate p = .ok reached →
      root.navigate (p ++ q) = (reached.navigate q).mapError (WalkError.behind p)) ∧
      ∀ e, root.navigate p = .error e → root.navigate (p ++ q) = .error e := by
  rw [navigate_append]
  constructor
  · intro reached hreached
    rw [hreached]
    rfl
  · intro e he
    rw [he]
    rfl

/-- A position that is too great for an array two steps deep, and a key that is not there. -/
theorem navigate_composes_blocked :
    let inner : Value := .table [(Text.ofString "b", .array .tuple [.integer 1, .boolean true])]
    let root : Value := .table [(Text.ofString "a", .array .list [inner])]
    let p : Pattern := ⟨[.field (Text.ofString "a"), .index 0]⟩
    let q : Pattern := ⟨[.field (Text.ofString "b"), .index 2, .index 0]⟩
    let missing : Pattern := ⟨[.field (Text.ofString "c")]⟩
    root.navigate p = .ok inner ∧
      inner.navigate q =
        .error (.blocked ⟨⟨[.field (Text.ofString "b")]⟩, .outOfBounds 2 2⟩) ∧
      root.navigate (p ++ q) =
        .error (.blocked ⟨p ++ ⟨[.field (Text.ofString "b")]⟩, .outOfBounds 2 2⟩) ∧
      root.navigate missing = .error (.blocked ⟨⟨[]⟩, .keyNotFound (Text.ofString "c")⟩) ∧
      root.navigate (missing ++ q) =
        .error (.blocked ⟨⟨[]⟩, .keyNotFound (Text.ofString "c")⟩) := by
  intro inner root p q missing
  have hreached : root.navigate p = .ok inner := by rfl
  have hwritable : Numeral.isWritable 2 = true := (Numeral.isWritable_iff 2).mpr (by decide)
  have hblocked : inner.navigate q =
      .error (.blocked ⟨⟨[.field (Text.ofString "b")]⟩, .outOfBounds 2 2⟩) := by
    change Except.error (blockedAt _ (.outOfBounds 2 2)) = _
    rw [blockedAt, if_pos hwritable]
    rfl
  have hmissing : root.navigate missing =
      .error (.blocked ⟨⟨[]⟩, .keyNotFound (Text.ofString "c")⟩) := by rfl
  refine ⟨hreached, hblocked, ?_, hmissing, (navigate_composes root missing q).2 _ hmissing⟩
  rw [(navigate_composes root p q).1 inner hreached, hblocked]
  rfl

end Value

namespace Document

open Value

/-! ## Texts of patterns -/

theorem extract_eq_ok_iff {v found : Value} {t : Text} {p : Pattern}
    (h : Pattern.parse t = .ok p) : extract v t = .ok found ↔ v.navigate p = .ok found := by
  rw [extract_of_parse h, mapError_eq_ok_iff]

/-- **Texts of patterns compose.**  Let two texts denote patterns of at least one step each, the
first one without blanks at its end and the second one without blanks at its beginning.  With a dot
between them they denote the steps of both, and a position in brackets behind the first one denotes
itself.  So what the whole extracts from a value is what the second text extracts from what the
first one extracts. -/
theorem extract_composes {t s : Text} {p q : Pattern} (hp : Pattern.parse t = .ok p)
    (hq : Pattern.parse s = .ok q) (hpne : p.steps ≠ []) (hqne : q.steps ≠ [])
    (hlast : ∀ c ∈ t.getLast?, c.isBlank = false) (hfirst : ∀ c ∈ s.head?, c.isBlank = false) :
    Pattern.parse (t ++ "." ++ s) = .ok (p ++ q) ∧
      (∀ i, Numeral.isWritable i = true →
        Pattern.parse (t ++ "[" ++ Numeral.ofInt i ++ "]") = .ok (p ++ ⟨[.index i]⟩)) ∧
      ∀ v found, extract v (t ++ "." ++ s) = .ok found ↔
        ∃ reached, extract v t = .ok reached ∧ extract reached s = .ok found := by
  have hwhole := Pattern.parse_append_dot hp hq hpne hqne hlast hfirst
  refine ⟨hwhole, fun i hi => Pattern.parse_append_position hp hpne hlast hi, fun v found => ?_⟩
  rw [extract_eq_ok_iff hwhole, navigate_append]
  constructor
  · intro hfound
    cases hreached : v.navigate p with
    | error e =>
        rw [hreached] at hfound
        cases hfound
    | ok reached =>
        rw [hreached] at hfound
        exact ⟨reached, (extract_eq_ok_iff hp).mpr hreached,
          (extract_eq_ok_iff hq).mpr (mapError_eq_ok_iff.mp hfound)⟩
  · rintro ⟨reached, hreached, hfound⟩
    rw [(extract_eq_ok_iff hp).mp hreached]
    exact mapError_eq_ok_iff.mpr ((extract_eq_ok_iff hq).mp hfound)

/-- Blanks before the first text and behind the second one, and a key that ends with a dot. -/
theorem extract_composes_spaced :
    let t : Text := Text.ofString " a"
    let s : Text := Text.ofString "\"b.\"[0]\t"
    let inner : Value := .table [(Text.ofString "b.", .array .list [.integer 1])]
    let root : Value := .table [(Text.ofString "a", inner)]
    let p : Pattern := ⟨[.field (Text.ofString "a")]⟩
    let q : Pattern := ⟨[.field (Text.ofString "b."), .index 0]⟩
    Pattern.parse t = .ok p ∧ Pattern.parse s = .ok q ∧
      Pattern.parse (t ++ "." ++ s) = .ok (p ++ q) ∧
      Pattern.parse (t ++ "[" ++ Numeral.ofInt (-2) ++ "]") = .ok (p ++ ⟨[.index (-2)]⟩) ∧
      extract root t = .ok inner ∧ extract inner s = .ok (.integer 1) ∧
      extract root (t ++ "." ++ s) = .ok (.integer 1) := by
  intro t s inner root p q
  have hp : Pattern.parse t = .ok p := by decide +kernel
  have hq : Pattern.parse s = .ok q := by decide +kernel
  have hwritable : Numeral.isWritable (-2) = true :=
    (Numeral.isWritable_iff (-2)).mpr (by decide)
  have hinner : extract root t = .ok inner := (extract_eq_ok_iff hp).mpr rfl
  have hfound : extract inner s = .ok (.integer 1) := (extract_eq_ok_iff hq).mpr rfl
  obtain ⟨hwhole, hposition, hextract⟩ :=
    extract_composes hp hq (by decide) (by decide) (by decide) (by decide)
  exact ⟨hp, hq, hwhole, hposition (-2) hwritable, hinner, hfound,
    (hextract root (.integer 1)).mpr ⟨inner, hinner, hfound⟩⟩

end Document

end DocumentQuery
