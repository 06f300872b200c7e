import DocumentQuery.Document
import DocumentQuery.Proofs.Navigation

/-!
# Texts as addresses

Every part of a document has an address: the text of the keys and positions that lead to it.  What
a text extracts is in turn the part that its steps lead to.

The addresses of a table begin with a key, which is what reading asks of a pattern, and their
positions are those of arrays, which have far fewer items than the longest numeral can count.
-/

namespace DocumentQuery

namespace Value

theorem isWritable_of_lt_maxItems {n : Nat} (h : n < maxItems) :
    Numeral.isWritable (n : Int) = true := by
  have hsmall : maxItems ≤ Nat.pow 10 19 := by decide
  exact Numeral.isWritable_of_lt (by decide) (by decide) (Nat.lt_of_lt_of_le h hsmall)

theorem Child.isWritable {v next : Value} {step : Step} (hv : v.WellFormed)
    (hchild : Child v step next) : step.isWritable = true := by
  cases hchild with
  | entry _ => rfl
  | item hitem =>
      cases hv with
      | array hcount _ =>
          obtain ⟨hposition, -⟩ := List.getElem?_eq_some_iff.mp hitem
          exact isWritable_of_lt_maxItems (Nat.lt_of_lt_of_le hposition hcount)
      | leaf _ harray => exact absurd rfl harray

theorem isWritable_of_leads {v found : Value} {steps : List Step} (hv : v.WellFormed)
    (h : Leads v steps found) : Pattern.IsWritable ⟨steps⟩ := by
  induction h with
  | here v => exact fun step hstep => absurd hstep List.not_mem_nil
  | step hchild _ ih =>
      exact List.forall_mem_cons.mpr ⟨hchild.isWritable hv, ih (hv.child hchild)⟩

theorem beginsWithKey_of_leads {entries : Entries} {found : Value} {steps : List Step}
    (h : Leads (.table entries) steps found) : Pattern.BeginsWithKey ⟨steps⟩ := by
  cases h with
  | here _ => exact Or.inl rfl
  | step hchild _ =>
      cases hchild with
      | entry _ => exact Or.inr ⟨_, _, rfl⟩

end Value

namespace Document

open Value

theorem extract_of_parse {v : Value} {t : Text} {p : Pattern} (h : Pattern.parse t = .ok p) :
    extract v t = (v.navigate p).mapError WalkError.failure := by
  simp only [extract, h]
  cases v.navigate p with
  | error e => rfl
  | ok found => rfl

theorem exists_walk_of_extract {v found : Value} {t : Text} (h : extract v t = .ok found) :
    ∃ p, Pattern.parse t = .ok p ∧ v.navigate p = .ok found := by
  cases hparse : Pattern.parse t with
  | error e =>
      rw [extract, hparse] at h
      cases h
  | ok p =>
      refine ⟨p, rfl, ?_⟩
      rw [extract_of_parse hparse] at h
      cases hwalk : v.navigate p with
      | error e =>
          rw [hwalk] at h
          cases h
      | ok reached =>
          rw [hwalk] at h
          exact congrArg Except.ok (Except.ok.inj h)

/-- **Every part of a document has an address.**  Whatever keys and positions lead to a part, they
can be written, their text is read back as the same steps, and it extracts that very part.  No text
extracts anything but the part that its steps lead to. -/
theorem extract_iff_leads {entries : Entries} (hroot : (Value.table entries).WellFormed) :
    (∀ steps found, Leads (.table entries) steps found →
      ∃ t, Pattern.write ⟨steps⟩ = .ok t ∧ Pattern.parse t = .ok ⟨steps⟩ ∧
        extract (.table entries) t = .ok found) ∧
      ∀ t found, extract (.table entries) t = .ok found →
        ∃ p, Pattern.parse t = .ok p ∧ Leads (.table entries) p.steps found := by
  constructor
  · intro steps found hleads
    have hwritable := isWritable_of_leads hroot hleads
    have hread := Pattern.parse_render (beginsWithKey_of_leads hleads) hwritable
    refine ⟨_, Pattern.write_eq_ok hwritable, hread, ?_⟩
    have hwalk : (Value.table entries).navigate ⟨steps⟩ = .ok found :=
      walk_of_leads hroot hleads []
    rw [extract_of_parse hread, hwalk]
    rfl
  · intro t found h
    obtain ⟨p, hparse, hwalk⟩ := exists_walk_of_extract h
    exact ⟨p, hparse, leads_of_walk hwalk⟩

/-- An empty key below a tuple below a key with a dot. -/
theorem extract_iff_leads_nested :
    let root : Entries := [(Text.ofString "a.b", .array .tuple [.table [([], .integer 1)]])]
    let steps : List Step := [.field (Text.ofString "a.b"), .index 0, .field []]
    (Value.table root).WellFormed ∧ Leads (.table root) steps (.integer 1) ∧
      ∃ t, Pattern.write ⟨steps⟩ = .ok t ∧ extract (.table root) t = .ok (.integer 1) ∧
        ∃ p, Pattern.parse t = .ok p ∧ Leads (.table root) p.steps (.integer 1) := by
  intro root steps
  have hleaf : (Value.integer 1).WellFormed := .leaf (by simp [kind]) (by simp [kind])
  have hinner : (Value.table [([], .integer 1)]).WellFormed :=
    .table (List.pairwise_singleton _ _) (List.forall_mem_singleton.mpr hleaf)
  have harray : (Value.array .tuple [.table [([], .integer 1)]]).WellFormed :=
    .array (by decide) (List.forall_mem_singleton.mpr hinner)
  have hroot : (Value.table root).WellFormed :=
    .table (List.pairwise_singleton _ _) (List.forall_mem_singleton.mpr harray)
  have hleads : Leads (.table root) steps (.integer 1) :=
    .step (.entry List.mem_cons_self) (.step (.item rfl) (.step (.entry List.mem_cons_self)
      (.here _)))
  obtain ⟨t, hwrite, -, hextract⟩ := (extract_iff_leads hroot).1 _ _ hleads
  exact ⟨hroot, hleads, t, hwrite, hextract, (extract_iff_leads hroot).2 _ _ hextract⟩

end Document

end DocumentQuery
