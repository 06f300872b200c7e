import DocumentQuery.Json.Reader
import DocumentQuery.Proofs.Literal
import DocumentQuery.Proofs.Parts
import DocumentQuery.Proofs.Reading

/-!
# What reading JSON yields

Whatever the JSON reader yields consists of values of documents and of nulls, and only a text with
a run of too many digits makes it stop at a numeral.

Words and numbers hold no equals sign, which tells them from the statements of other formats.
-/

namespace DocumentQuery

namespace Json

open NumberLiteral

/-- Only a text with a run of too many digits is to blame for a stop at a numeral. -/
def Stop.Blames : Stop → Text → Prop
  | .fault _ _, _ => True
  | .limit _, t => ¬t.HasShortRuns

theorem inherits_blames : Inherits Stop.Blames := by
  intro stop s t hs h
  cases stop with
  | fault _ _ => trivial
  | limit _ => exact fun hshort => h (hshort.of_infix hs.isInfix)

/-- A value of a document, or a null. -/
def IsData (v : Value) : Prop :=
  v.HasKind ∨ v = .null

theorem skipSpace_suffix (t : Text) : skipSpace t <:+ t :=
  List.dropWhile_suffix _

theorem skipSpace_suffix_cons (c : CodePoint) (t : Text) : skipSpace t <:+ c :: t :=
  (skipSpace_suffix t).trans (List.suffix_cons c t)

/-- What is proper for an end piece is proper for the text. -/
theorem proper_of_suffix {α : Type} {P : α → Prop} {s t : Text}
    {outcome : Except Stop (α × Text)} (hs : s <:+ t) (h : Proper Stop.Blames s P outcome) :
    Proper Stop.Blames t P outcome :=
  h.of_suffix inherits_blames hs

/-! ## Strings -/

theorem proper_prepend {whole t rest : Text} (c : CodePoint) (hrest : rest <:+ t)
    (h : Proper Stop.Blames rest (fun _ => True) (readChars whole rest)) :
    Proper Stop.Blames t (fun _ => True) (do
      let (s, after) ← readChars whole rest
      return (c :: s, after)) :=
  proper_of_suffix hrest (h.bind_pure (fun _ _ => rfl) fun _ _ => trivial)

theorem readChars_proper (whole t : Text) :
    Proper Stop.Blames t (fun _ => True) (readChars whole t) := by
  -- The cases are those of the reader; in each that reads on, some code points have been passed.
  fun_induction readChars whole t with
  | case1 => exact .error trivial
  | case2 rest => exact .ok (List.suffix_cons _ _) trivial
  | case3 => exact .error trivial
  | case4 => exact .error trivial
  | case5 a b c d n e f g h rest _ _ _ ih =>
      exact proper_prepend _ ⟨[_, _, a, b, c, d], rfl⟩ ih
  | case6 a b c d n e f g h rest m _ _ _ _ ih =>
      exact proper_prepend _ ⟨[_, _, a, b, c, d, _, _, e, f, g, h], rfl⟩ ih
  | case7 a b c d n e f g h rest m _ _ _ _ ih =>
      exact proper_prepend _ ⟨[_, _, a, b, c, d], rfl⟩ ih
  | case8 a b c d rest n _ _ _ ih => exact proper_prepend _ ⟨[_, _, a, b, c, d], rfl⟩ ih
  | case9 => exact .error trivial
  | case10 => exact .error trivial
  | case11 c rest _ _ meant _ ih => exact proper_prepend _ ⟨[_, c], rfl⟩ ih
  | case12 => exact .error trivial
  | case13 c rest _ _ _ _ _ _ ih => exact proper_prepend _ (List.suffix_cons _ _) ih

/-! ## Words and numbers -/

theorem passes_digitRun (t : Text) : Passes t (digitRun t).2 := by
  refine ⟨t.takeWhile CodePoint.isDigit, List.takeWhile_append_dropWhile.symm, fun hmem => ?_⟩
  exact absurd (List.mem_takeWhile_imp hmem) (by decide)

/-- A number ends before the first equals sign, and its leading digits stand in the text. -/
theorem passes_of_readNumber? {t rest : Text} {literal : NumberLiteral}
    (h : readNumber? t = some (literal, rest)) :
    Passes t rest ∧ literal.whole <:+: t ∧ ∀ c ∈ literal.whole, c.isDigit = true := by
  unfold readNumber? at h
  split at h
  rename_i negative magnitude hsign
  have hmagnitude : Passes t magnitude := by
    split at hsign
    · cases hsign
      exact (Passes.refl _).cons (by decide)
    · cases hsign
      exact .refl _
  split at h
  · rename_i digits
    cases h
    have htail := passes_readTail passes_digitRun negative [.char '0'] digits
    refine ⟨hmagnitude.trans (htail.cons (by decide)), ?_, ?_⟩
    · exact List.IsInfix.trans ⟨[], digits, rfl⟩ hmagnitude.suffix.isInfix
    · intro c hc
      rw [List.mem_singleton.mp hc]
      decide
  · rename_i c digits _
    split at h
    · cases h
      have htail := passes_readTail passes_digitRun negative
        (digitRun (c :: digits)).1 (digitRun (c :: digits)).2
      refine ⟨hmagnitude.trans ((passes_digitRun _).trans htail), ?_, ?_⟩
      · exact (List.takeWhile_prefix _).isInfix.trans hmagnitude.suffix.isInfix
      · exact fun d hd => List.mem_takeWhile_imp hd
    · cases h
  · cases h

theorem passes_of_readWord? {t rest : Text} {v : Value} (h : readWord? t = some (v, rest)) :
    Passes t rest ∧ v.IsLeaf ∧ IsData v := by
  obtain ⟨⟨word, value⟩, hfind, hpair⟩ := Option.map_eq_some_iff.mp h
  cases hpair
  have hword : (word, v) ∈ words := List.mem_of_find?_eq_some hfind
  refine ⟨⟨word, ?_, ?_⟩, ?_⟩
  · have hfound := List.find?_some hfind
    obtain ⟨after, rfl⟩ := List.isPrefixOf_iff_prefix.mp hfound
    rw [List.drop_left]
  · have hall : ∀ entry ∈ words, CodePoint.char '=' ∉ entry.1 := by decide
    exact hall _ hword
  · simp only [words, List.mem_cons, Prod.mk.injEq, List.not_mem_nil, or_false] at hword
    rcases hword with ⟨-, rfl⟩ | ⟨-, rfl⟩ | ⟨-, rfl⟩ | ⟨-, rfl⟩ | ⟨-, rfl⟩ | ⟨-, rfl⟩
    · exact ⟨⟨nofun, nofun⟩, Or.inr rfl⟩
    · exact ⟨Value.isLeaf_of_isScalar rfl rfl, Or.inl ⟨_, rfl⟩⟩
    · exact ⟨Value.isLeaf_of_isScalar rfl rfl, Or.inl ⟨_, rfl⟩⟩
    · exact ⟨Value.isLeaf_of_isScalar rfl rfl, Or.inl ⟨_, rfl⟩⟩
    · exact ⟨Value.isLeaf_of_isScalar rfl rfl, Or.inl ⟨_, rfl⟩⟩
    · exact ⟨Value.isLeaf_of_isScalar rfl rfl, Or.inl ⟨_, rfl⟩⟩

/-- A word or a number is a value without parts and ends before the first equals sign. -/
theorem passes_of_readAtom {t rest : Text} {v : Value} (h : readAtom t = .ok (v, rest)) :
    Passes t rest ∧ v.IsLeaf ∧ IsData v := by
  unfold readAtom at h
  split at h
  · rename_i hword
    cases h
    exact passes_of_readWord? hword
  · split at h
    · cases h
    · rename_i literal after hnumber
      obtain ⟨hpasses, -⟩ := passes_of_readNumber? hnumber
      split at h
      · split at h
        · cases h
          exact ⟨hpasses, Value.isLeaf_of_isScalar rfl rfl, Or.inl ⟨_, rfl⟩⟩
        · cases h
      · cases h
        exact ⟨hpasses, Value.isLeaf_of_isScalar rfl rfl, Or.inl ⟨_, rfl⟩⟩

/-- An integer that is too long to be read is a run of digits in the text. -/
theorem blames_of_readAtom {t : Text} {stop : Stop} (h : readAtom t = .error stop) :
    stop.Blames t := by
  unfold readAtom at h
  split at h
  · cases h
  · split at h
    · cases h
      trivial
    · rename_i literal after hnumber
      obtain ⟨-, hinfix, hdigits⟩ := passes_of_readNumber? hnumber
      split at h
      · rename_i hinteger
        split at h
        · cases h
        · rename_i e hlimit
          cases h
          intro hshort
          rw [NumberLiteral.toInt, Numeral.read, if_pos (hshort _ hinfix hdigits)] at hlimit
          cases hlimit
      · cases h

theorem readAtom_proper (t : Text) :
    Proper Stop.Blames t (Value.Everywhere IsData) (readAtom t) where
  leaves _ _ h := (passes_of_readAtom h).1.suffix
  yields _ _ h := Value.everywhere_of_isLeaf (passes_of_readAtom h).2.1 (passes_of_readAtom h).2.2
  stops _ h := blames_of_readAtom h

/-! ## Values -/

theorem everywhere_table {entries : Entries} (h : entries.Everywhere IsData) :
    (Value.table entries).Everywhere IsData :=
  Value.everywhere_table_iff.mpr ⟨Or.inl ⟨_, rfl⟩, h⟩

theorem everywhere_array {items : List Value} (h : ∀ item ∈ items, item.Everywhere IsData) :
    (Value.array .list items).Everywhere IsData :=
  Value.everywhere_array_iff.mpr ⟨Or.inl ⟨_, rfl⟩, h⟩

mutual

theorem readValue_proper (fuel : Nat) (t : Text) :
    Proper Stop.Blames t (Value.Everywhere IsData) (readValue fuel t) := by
  cases fuel with
  | zero => exact .error trivial
  | succ fuel =>
      unfold readValue
      split
      · rename_i rest
        refine proper_of_suffix (List.suffix_cons _ rest) ?_
        exact (readChars_proper _ rest).bind_pure (fun _ _ => rfl) fun _ _ =>
          Value.everywhere_of_isLeaf (Value.isLeaf_of_isScalar rfl rfl) (Or.inl ⟨_, rfl⟩)
      · rename_i rest
        refine proper_of_suffix (skipSpace_suffix_cons _ rest) ?_
        split
        · rename_i after heq
          rw [heq]
          exact .ok (List.suffix_cons _ _) (everywhere_array nofun)
        · exact (readItems_proper fuel _).bind_pure (fun _ _ => rfl) fun _ => everywhere_array
      · rename_i rest
        refine proper_of_suffix (skipSpace_suffix_cons _ rest) ?_
        split
        · rename_i after heq
          rw [heq]
          exact .ok (List.suffix_cons _ _) (everywhere_table Entries.everywhere_nil)
        · exact (readMembers_proper fuel Entries.everywhere_nil _).bind_pure (fun _ _ => rfl)
            fun _ => everywhere_table
      · exact readAtom_proper t

theorem readItems_proper (fuel : Nat) (t : Text) :
    Proper Stop.Blames t (fun items => ∀ item ∈ items, item.Everywhere IsData)
      (readItems fuel t) := by
  cases fuel with
  | zero => exact .error trivial
  | succ fuel =>
      unfold readItems
      refine (readValue_proper fuel t).bind inherits_blames fun item rest hitem hrest => ?_
      refine proper_of_suffix (skipSpace_suffix rest) ?_
      dsimp only
      split
      · rename_i after heq
        rw [heq]
        exact .ok (List.suffix_cons _ _) (List.forall_mem_singleton.mpr hitem)
      · rename_i after heq
        rw [heq]
        refine proper_of_suffix (skipSpace_suffix_cons _ after) ?_
        exact (readItems_proper fuel _).bind_pure (fun _ _ => rfl) fun items hitems =>
          List.forall_mem_cons.mpr ⟨hitem, hitems⟩
      · exact .error trivial

theorem readMembers_proper (fuel : Nat) {before : Entries} (hbefore : before.Everywhere IsData)
    (t : Text) : Proper Stop.Blames t (Entries.Everywhere IsData) (readMembers fuel before t) := by
  cases fuel with
  | zero => exact .error trivial
  | succ fuel =>
      unfold readMembers
      split
      · rename_i rest
        refine proper_of_suffix (List.suffix_cons _ rest) ?_
        refine (readChars_proper _ rest).bind inherits_blames fun key rest _ _ => ?_
        refine proper_of_suffix (skipSpace_suffix rest) ?_
        dsimp only
        split
        · rename_i after heq
          rw [heq]
          refine proper_of_suffix (skipSpace_suffix_cons _ after) ?_
          refine (readValue_proper fuel _).bind inherits_blames fun value rest hvalue _ => ?_
          refine proper_of_suffix (skipSpace_suffix rest) ?_
          have hentries := hbefore.put key hvalue
          dsimp only
          split
          · rename_i after heq
            rw [heq]
            exact .ok (List.suffix_cons _ _) hentries
          · rename_i after heq
            rw [heq]
            refine proper_of_suffix (skipSpace_suffix_cons _ after) ?_
            exact readMembers_proper fuel hentries _
          · exact .error trivial
        · exact .error trivial
      · exact .error trivial

end

/-! ## Whole texts -/

/-- What is made of a value that has been read from the beginning of a text. -/
def finish : Value × Text → Except Stop Value
  | (value, rest) =>
      match skipSpace rest with
      | [] => .ok value
      | unread => .error (.fault .extraData unread)

theorem readWhole_cases (t : Text) :
    (∃ unread, readWhole t = .error (.fault .byteOrderMark unread)) ∨
      readWhole t = readValue (2 * t.length + 2) (skipSpace t) >>= finish := by
  unfold readWhole
  split
  · exact Or.inl ⟨_, rfl⟩
  · exact Or.inr rfl

/-- A text that denotes a value has nothing but white space around the value. -/
theorem exists_readValue_of_read {t : Text} {v : Value} (h : read t = .ok v) :
    ∃ fuel rest, readValue fuel (skipSpace t) = .ok (v, rest) ∧ skipSpace rest = [] := by
  have hwhole : readWhole t = .ok v := by
    unfold read at h
    split at h
    · rename_i hwhole
      rw [hwhole, Except.ok.inj h]
    · cases h
    · cases h
  rcases readWhole_cases t with ⟨_, hmark⟩ | hread
  · rw [hmark] at hwhole
    cases hwhole
  · rw [hread] at hwhole
    cases hvalue : readValue (2 * t.length + 2) (skipSpace t) with
    | error stop =>
        rw [hvalue] at hwhole
        cases hwhole
    | ok found =>
        obtain ⟨value, rest⟩ := found
        rw [hvalue] at hwhole
        change finish (value, rest) = .ok v at hwhole
        unfold finish at hwhole
        dsimp only at hwhole
        split at hwhole
        · rename_i hend
          cases hwhole
          exact ⟨_, rest, hvalue, hend⟩
        · cases hwhole

theorem everywhere_isData_of_read {t : Text} {v : Value} (h : read t = .ok v) :
    v.Everywhere IsData := by
  obtain ⟨fuel, rest, hread, -⟩ := exists_readValue_of_read h
  exact (readValue_proper fuel _).yields _ _ hread

/-- Only a run of too many digits can make a numeral too long to be read. -/
theorem read_ne_limit {t : Text} (hshort : t.HasShortRuns) (e : Numeral.LimitError) :
    read t ≠ .error (.limit e) := by
  intro h
  have hwhole : readWhole t = .error (.limit e) := by
    unfold read at h
    split at h
    · cases h
    · rename_i hwhole
      rw [hwhole, ReadError.limit.inj (Except.error.inj h)]
    · cases h
  rcases readWhole_cases t with ⟨_, hmark⟩ | hread
  · rw [hmark] at hwhole
    cases hwhole
  · rw [hread] at hwhole
    cases hvalue : readValue (2 * t.length + 2) (skipSpace t) with
    | error stop =>
        rw [hvalue] at hwhole
        have hblames := (readValue_proper _ _).stops _ hvalue
        rw [Except.error.inj hwhole] at hblames
        exact hblames (hshort.of_infix (skipSpace_suffix t).isInfix)
    | ok found =>
        obtain ⟨value, rest⟩ := found
        rw [hvalue] at hwhole
        change finish (value, rest) = _ at hwhole
        unfold finish at hwhole
        dsimp only at hwhole
        split at hwhole
        · cases hwhole
        · cases hwhole

end Json

end DocumentQuery
