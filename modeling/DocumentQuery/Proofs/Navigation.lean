import DocumentQuery.Navigation
import DocumentQuery.Proofs.Pattern.RoundTrip

/-!
# Where a walk leads and what blocks it

Two relations say without a walk what steps mean: `Child` relates a value to the parts that one step
selects, and `Blocks` says why a step selects nothing.  `Leads` follows a path of steps.

* `follow_cases` — each step selects a part or is blocked, unless the value belongs to no document.
* `leads_of_walk`, `walk_of_leads` — a walk succeeds at the value that its path leads to; for the
  second direction no table may hold a key twice.
* `walk_append` — a walk may be made in two parts.
* `blocks_of_walk` — a walk that is blocked has taken every step before the obstacle, and the
  obstacle is what the next step meets.
-/

namespace DocumentQuery

/-- The kind of the values that have parts for such a step. -/
def Step.container : Step → Kind
  | .field _ => .table
  | .index _ => .array

namespace Value

/-- A part of a value that a single step selects. -/
inductive Child : Value → Step → Value → Prop
  | entry {entries : Entries} {name : Text} {child : Value} (hmem : (name, child) ∈ entries) :
      Child (.table entries) (.field name) child
  | item {form : ArrayForm} {items : List Value} {position : Nat} {child : Value}
      (hitem : items[position]? = some child) :
      Child (.array form items) (.index position) child

/-- A path of keys and positions leads from a value to a part of it. -/
inductive Leads : Value → List Step → Value → Prop
  | here (v : Value) : Leads v [] v
  | step {v next found : Value} {step : Step} {rest : List Step} (hchild : Child v step next)
      (hrest : Leads next rest found) : Leads v (step :: rest) found

/-- What is in the way of a step that selects no part of a value.  The kind comes first: only a
table can lack a key, and only an array can be too short. -/
inductive Blocks : Value → Step → Obstacle → Prop
  | kind {v : Value} {step : Step} {found : Kind} (hkind : v.kind = .ok found)
      (hne : found ≠ step.container) : Blocks v step (.kindMismatch step.container found)
  | key {entries : Entries} {name : Text} (hnone : name ∉ entries.map Prod.fst) :
      Blocks (.table entries) (.field name) (.keyNotFound name)
  | bounds {form : ArrayForm} {items : List Value} {position : Int}
      (hbounds : position < 0 ∨ (items.length : Int) ≤ position) :
      Blocks (.array form items) (.index position) (.outOfBounds position items.length)

/-- The most items that an array can have: lengths are signed integers of 64 bits. -/
def maxItems : Nat := 2 ^ 63 - 1

/-- No table among the parts of a value holds a key twice, and no array is longer than it can be. -/
inductive WellFormed : Value → Prop
  | table {entries : Entries} (hdistinct : (entries.map Prod.fst).Nodup)
      (hparts : ∀ entry ∈ entries, WellFormed entry.2) : WellFormed (.table entries)
  | array {form : ArrayForm} {items : List Value} (hcount : items.length ≤ maxItems)
      (hparts : ∀ item ∈ items, WellFormed item) : WellFormed (.array form items)
  | leaf {v : Value} (htable : v.kind ≠ .ok .table) (harray : v.kind ≠ .ok .array) : WellFormed v

/-! ## One step -/

theorem lookup_eq_none_iff {entries : Entries} {name : Text} :
    entries.lookup name = none ↔ name ∉ entries.map Prod.fst := by
  rw [List.lookup_eq_none_iff]
  simp only [bne_iff_ne, ne_eq, List.mem_map, not_exists, not_and]
  constructor
  · exact fun h entry hmem heq => h entry hmem heq.symm
  · exact fun h entry hmem heq => h entry hmem heq.symm

theorem mem_of_lookup {entries : Entries} {name : Text} {child : Value}
    (h : entries.lookup name = some child) : (name, child) ∈ entries := by
  obtain ⟨before, after, rfl, -⟩ := List.lookup_eq_some_iff.mp h
  exact List.mem_append_right before List.mem_cons_self

theorem lookup_of_mem {entries : Entries} {name : Text} {child : Value}
    (hdistinct : (entries.map Prod.fst).Nodup) (h : (name, child) ∈ entries) :
    entries.lookup name = some child := by
  obtain ⟨before, after, rfl⟩ := List.append_of_mem h
  apply List.lookup_eq_some_iff.mpr
  -- An equal key before this one would be there twice.
  refine ⟨before, after, rfl, ?_⟩
  rw [List.map_append, List.map_cons] at hdistinct
  intro entry hentry
  rw [bne_iff_ne]
  rintro rfl
  exact (List.nodup_append.mp hdistinct).2.2 _ (List.mem_map_of_mem hentry) _
    List.mem_cons_self rfl

theorem exists_table_of_kind {v : Value} (h : v.kind = .ok .table) :
    ∃ entries, v = .table entries := by
  cases v with
  | table entries => exact ⟨entries, rfl⟩
  | _ => cases h

theorem exists_array_of_kind {v : Value} (h : v.kind = .ok .array) :
    ∃ form items, v = .array form items := by
  cases v with
  | array form items => exact ⟨form, items, rfl⟩
  | _ => cases h

theorem follow_of_ne_container {v : Value} {step : Step} {kind : Kind} (path : List Step)
    (hkind : v.kind = .ok kind) (hne : kind ≠ step.container) :
    v.follow path step = .error (blockedAt path (.kindMismatch step.container kind)) := by
  unfold follow
  rw [hkind]
  cases step with
  | field name =>
      cases v with
      | table entries => exact absurd (Except.ok.inj hkind).symm hne
      | _ => rfl
  | index position =>
      cases v with
      | array form items => exact absurd (Except.ok.inj hkind).symm hne
      | _ => rfl

theorem follow_field_table (path : List Step) (entries : Entries) (name : Text) :
    (Value.table entries).follow path (.field name) =
      match entries.lookup name with
      | some child => .ok child
      | none => .error (blockedAt path (.keyNotFound name)) := rfl

theorem follow_index_array (path : List Step) (form : ArrayForm) (items : List Value)
    (position : Int) :
    (Value.array form items).follow path (.index position) =
      match if 0 ≤ position then items[position.toNat]? else none with
      | some child => .ok child
      | none => .error (blockedAt path (.outOfBounds position items.length)) := rfl

/-- A step selects a part, or something is in its way, or the value belongs to no document. -/
theorem follow_cases (path : List Step) (v : Value) (step : Step) :
    (∃ child, v.follow path step = .ok child ∧ Child v step child) ∨
      (∃ obstacle, v.follow path step = .error (blockedAt path obstacle) ∧
        Blocks v step obstacle) ∨
      ∃ type, v.follow path step = .error (.unsupported type) ∧ v.kind = .error type := by
  cases hkind : v.kind with
  | error type =>
      refine Or.inr (Or.inr ⟨type, ?_, rfl⟩)
      rw [follow, hkind]
  | ok kind =>
      by_cases hne : kind ≠ step.container
      · exact Or.inr (Or.inl ⟨_, follow_of_ne_container path hkind hne, .kind hkind hne⟩)
      rw [not_not] at hne
      subst hne
      -- The value is of the kind that has parts for the step, so the step looks for its part.
      cases step with
      | field name =>
          obtain ⟨entries, rfl⟩ := exists_table_of_kind hkind
          rw [follow_field_table]
          cases hlookup : entries.lookup name with
          | some child => exact Or.inl ⟨child, rfl, .entry (mem_of_lookup hlookup)⟩
          | none => exact Or.inr (Or.inl ⟨_, rfl, .key (lookup_eq_none_iff.mp hlookup)⟩)
      | index position =>
          obtain ⟨form, items, rfl⟩ := exists_array_of_kind hkind
          rw [follow_index_array]
          rcases lt_or_ge position 0 with hnegative | hnonnegative
          · refine Or.inr (Or.inl ⟨_, ?_, .bounds (Or.inl hnegative)⟩)
            rw [if_neg (by omega)]
          · rw [if_pos hnonnegative]
            cases hitem : items[position.toNat]? with
            | some child =>
                have hposition : (position.toNat : Int) = position :=
                  Int.toNat_of_nonneg hnonnegative
                exact Or.inl ⟨child, rfl, hposition ▸ .item hitem⟩
            | none =>
                have hlength := List.getElem?_eq_none_iff.mp hitem
                exact Or.inr (Or.inl ⟨_, rfl, .bounds (Or.inr (by omega))⟩)

/-- At most one thing is in the way of a step. -/
theorem Blocks.unique {v : Value} {step : Step} {first second : Obstacle}
    (hfirst : Blocks v step first) (hsecond : Blocks v step second) : first = second := by
  cases hfirst with
  | kind hkind hne =>
      cases hsecond with
      | kind hother _ => rw [Except.ok.inj (hkind.symm.trans hother)]
      | key _ => exact absurd (Except.ok.inj hkind).symm hne
      | bounds _ => exact absurd (Except.ok.inj hkind).symm hne
  | key hnone =>
      cases hsecond with
      | kind hother hne => exact absurd (Except.ok.inj hother).symm hne
      | key _ => rfl
  | bounds hbounds =>
      cases hsecond with
      | kind hother hne => exact absurd (Except.ok.inj hother).symm hne
      | bounds _ => rfl

theorem follow_of_child {v next : Value} {step : Step} (hv : v.WellFormed)
    (hchild : Child v step next) (path : List Step) : v.follow path step = .ok next := by
  cases hchild with
  | entry hmem =>
      cases hv with
      | table hdistinct _ => rw [follow_field_table, lookup_of_mem hdistinct hmem]
      | leaf htable _ => exact absurd rfl htable
  | item hitem => rw [follow_index_array, if_pos (Int.natCast_nonneg _), Int.toNat_natCast, hitem]

theorem WellFormed.child {v next : Value} {step : Step} (hv : v.WellFormed)
    (hchild : Child v step next) : next.WellFormed := by
  cases hchild with
  | entry hmem =>
      cases hv with
      | table _ hparts => exact hparts _ hmem
      | leaf htable _ => exact absurd rfl htable
  | item hitem =>
      cases hv with
      | array _ hparts => exact hparts _ (List.mem_of_getElem? hitem)
      | leaf _ harray => exact absurd rfl harray

/-! ## Many steps -/

/-- A walk goes on from where its first part ended. -/
theorem walk_append (path : List Step) (v : Value) (first rest : List Step) :
    walk path v (first ++ rest) =
      (walk path v first).bind fun reached => walk (path ++ first) reached rest := by
  induction first generalizing path v with
  | nil =>
      rw [List.append_nil]
      rfl
  | cons step first ih =>
      rw [List.cons_append, walk, walk]
      cases v.follow path step with
      | error e => rfl
      | ok child =>
          change walk (path ++ [step]) child (first ++ rest) = _
          rw [ih, List.append_assoc]
          rfl

theorem leads_of_walk {path steps : List Step} {v found : Value}
    (h : walk path v steps = .ok found) : Leads v steps found := by
  induction steps generalizing path v with
  | nil =>
      cases h
      exact .here _
  | cons step rest ih =>
      rw [walk] at h
      rcases follow_cases path v step with ⟨child, hfollow, hchild⟩ | ⟨_, hfollow, -⟩ |
        ⟨_, hfollow, -⟩
      · rw [hfollow] at h
        exact .step hchild (ih h)
      · rw [hfollow] at h
        cases h
      · rw [hfollow] at h
        cases h

theorem walk_of_leads {steps : List Step} {v found : Value} (hv : v.WellFormed)
    (h : Leads v steps found) (path : List Step) : walk path v steps = .ok found := by
  induction h generalizing path with
  | here v => rfl
  | step hchild _ ih =>
      rw [walk, follow_of_child hv hchild]
      exact ih (hv.child hchild) _

theorem blockedAt_eq_blocked {path : List Step} {obstacle : Obstacle} {e : NavigationError}
    (h : blockedAt path obstacle = .blocked e) : e.path = ⟨path⟩ ∧ e.obstacle = obstacle := by
  cases obstacle with
  | outOfBounds position length =>
      rw [blockedAt] at h
      split at h
      · cases h
        exact ⟨rfl, rfl⟩
      · cases h
  | _ =>
      cases h
      exact ⟨rfl, rfl⟩

/-- A walk that is blocked takes all steps before the obstacle and tells what the next one meets. -/
theorem blocks_of_walk {path steps : List Step} {v : Value} {e : NavigationError}
    (h : walk path v steps = .error (.blocked e)) :
    ∃ taken step rest reached, steps = taken ++ step :: rest ∧ walk path v taken = .ok reached ∧
      e.path = ⟨path ++ taken⟩ ∧ Blocks reached step e.obstacle := by
  -- The path grows with each step that is taken, so the claim is for every path.
  induction steps generalizing path v with
  | nil => cases h
  | cons step rest ih =>
      rw [walk] at h
      rcases follow_cases path v step with ⟨child, hfollow, hchild⟩ | ⟨obstacle, hfollow, hblocks⟩ |
        ⟨type, hfollow, -⟩
      · rw [hfollow] at h
        obtain ⟨taken, later, others, reached, rfl, hwalk, hpath, hblocks⟩ := ih h
        refine ⟨step :: taken, later, others, reached, rfl, ?_, ?_, hblocks⟩
        · rw [walk, hfollow]
          exact hwalk
        · rw [hpath, List.append_assoc, List.singleton_append]
      · rw [hfollow] at h
        obtain ⟨hpath, hobstacle⟩ := blockedAt_eq_blocked (Except.error.inj h)
        refine ⟨[], step, rest, v, rfl, rfl, ?_, ?_⟩
        · rw [hpath, List.append_nil]
        · rwa [hobstacle]
      · rw [hfollow] at h
        cases h

/-! ## Blame -/

theorem nonneg_of_leads {v found : Value} {steps : List Step} (h : Leads v steps found) :
    ∀ position, Step.index position ∈ steps → 0 ≤ position := by
  induction h with
  | here v => exact fun position hmem => absurd hmem List.not_mem_nil
  | step hchild _ ih =>
      intro position hmem
      rcases List.mem_cons.mp hmem with rfl | hlater
      · cases hchild with
        | item _ => exact Int.natCast_nonneg _
      · exact ih position hlater

/-- The message names the place in the form in which patterns are written. -/
theorem message_eq_of_write {e : NavigationError} {place : Text} (hne : e.path.steps ≠ [])
    (h : e.path.write = .ok place) :
    e.message = "at `" ++ place ++ "`" ++ ": " ++ e.obstacle.message := by
  rw [NavigationError.message, Pattern.location, if_neg (by simpa using hne),
    (Pattern.isWritable_of_write h).2]

/-- **A blocked walk blames the first step that cannot be taken.**  The path in the error is the
part of the pattern before that step.  It leads to a value, and the obstacle is what the step meets
there.  If the pattern was read from a text, the place that the message names can be read again and
denotes the path.  A walk that is not blocked has met no negative position. -/
theorem navigate_blames (root : Value) (p : Pattern) :
    (∀ e, root.navigate p = .error (.blocked e) →
      e.path = p.initial e.path.steps.length ∧ e.path.steps.length < p.steps.length ∧
        (∃ v step, root.navigate e.path = .ok v ∧ p.steps[e.path.steps.length]? = some step ∧
          ∀ obstacle, e.obstacle = obstacle ↔ Blocks v step obstacle) ∧
        ∀ t, Pattern.parse t = .ok p →
          ∃ place, e.path.write = .ok place ∧ Pattern.parse place = .ok e.path ∧
            (e.path.steps ≠ [] →
              e.message = "at `" ++ place ++ "`" ++ ": " ++ e.obstacle.message)) ∧
      ∀ found, root.navigate p = .ok found →
        ∀ position, .index position ∈ p.steps → 0 ≤ position := by
  refine ⟨?_, fun found h => nonneg_of_leads (leads_of_walk h)⟩
  intro e h
  obtain ⟨taken, step, rest, reached, hsteps, hwalk, hpath, hblocks⟩ := blocks_of_walk h
  rw [List.nil_append] at hpath
  have hlength : e.path.steps.length = taken.length := by rw [hpath]
  have hinitial : e.path = p.initial taken.length := by
    rw [hpath, Pattern.initial, if_neg (by omega), Int.toNat_natCast, hsteps, List.take_left]
  rw [hlength]
  refine ⟨hinitial, ?_, ⟨reached, step, ?_, ?_, ?_⟩, ?_⟩
  · simp [hsteps]
  · rw [hpath]
    exact hwalk
  · simp [hsteps]
  · intro obstacle
    constructor
    · rintro rfl
      exact hblocks
    · exact hblocks.unique
  · intro t ht
    obtain ⟨hwritable, hread⟩ := Pattern.parse_render_initial ht taken.length
    rw [← hinitial] at hwritable hread
    have hwrite := Pattern.write_eq_ok hwritable
    exact ⟨_, hwrite, hread, fun hne => message_eq_of_write hne hwrite⟩

/-- A position in a truth value, three steps deep; and a walk that succeeds. -/
theorem navigate_blames_boolean :
    let root : Value := .table [([.char 'a'], .array .list
      [.integer 1, .table [(Text.ofString "b c", .boolean true)]])]
    let e : NavigationError :=
      ⟨⟨[.field [.char 'a'], .index 1, .field (Text.ofString "b c")]⟩,
        .kindMismatch .array .boolean⟩
    let p : Pattern := ⟨e.path.steps ++ [.index 0]⟩
    root.navigate p = .error (.blocked e) ∧ e.path = p.initial 3 ∧
      (∃ v, root.navigate e.path = .ok v ∧ Blocks v (.index 0) (.kindMismatch .array .boolean)) ∧
      (∃ place, e.path.write = .ok place ∧ Pattern.parse place = .ok e.path) ∧
      root.navigate (p.initial 2) = .ok (.table [(Text.ofString "b c", .boolean true)]) ∧
      (0 : Int) ≤ 1 := by
  intro root e p
  have hblocked : root.navigate p = .error (.blocked e) := by rfl
  have hfound : root.navigate (p.initial 2) =
      .ok (.table [(Text.ofString "b c", .boolean true)]) := by rfl
  have hwritable : p.IsWritable := by
    intro step hstep
    simp only [p, e, List.cons_append, List.nil_append, List.mem_cons, List.not_mem_nil,
      or_false] at hstep
    rcases hstep with rfl | rfl | rfl | rfl
    · rfl
    · exact (Numeral.isWritable_iff 1).mpr (by decide)
    · rfl
    · exact (Numeral.isWritable_iff 0).mpr (by decide)
  have hread : Pattern.parse p.render = .ok p :=
    Pattern.parse_render (Or.inr ⟨_, _, rfl⟩) hwritable
  obtain ⟨hpath, -, ⟨v, step, hv, hstep, hobstacle⟩, hplace⟩ :=
    (navigate_blames root p).1 e hblocked
  obtain ⟨place, hwrite, hreplay, -⟩ := hplace _ hread
  have hindex : step = .index 0 := (Option.some.inj hstep).symm
  refine ⟨hblocked, hpath, ⟨v, hv, ?_⟩, ⟨place, hwrite, hreplay⟩, hfound, ?_⟩
  · exact hindex ▸ (hobstacle _).mp rfl
  · exact (navigate_blames root (p.initial 2)).2 _ hfound 1
      (List.mem_cons_of_mem _ List.mem_cons_self)

end Value

end DocumentQuery
