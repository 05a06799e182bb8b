import Instrument.Catalog.Validation

namespace Instrument

namespace Rule

variable {rule : Rule} {rules : List Rule} {d : Datum}

def Passes (rules : List Rule) (d : Datum) : Prop := checkAll rules d = []

@[simp] theorem passes_cons : Passes (rule :: rules) d ↔ check rule d = [] ∧ Passes rules d :=
  List.append_eq_nil_iff

theorem check_shape {allowed : List Datum.Shape} :
    check (.shape allowed) d = [] ↔ allowed.any (·.holds d) = true := by
  change (if allowed.any (·.holds d) then [] else _) = [] ↔ _
  split <;> simp_all

theorem check_required {names : List String} {members : List (String × Datum)} :
    check (.required names) (.record members) = [] ↔
      ∀ name ∈ names, (Datum.record members).hasField name = true := by
  change missingFindings names (.record members) = [] ↔ _
  simp [missingFindings]

theorem check_fields {parts : List (String × List Rule)} {members : List (String × Datum)} :
    check (.fields parts) (.record members) = [] ↔
      ∀ p ∈ parts, ∀ member, (Datum.record members).field? p.1 = some member → Passes p.2 member := by
  change checkFields parts (.record members) = [] ↔ _
  induction parts with
  | nil => exact iff_of_true rfl (by simp)
  | cons p parts ih =>
      obtain ⟨key, rules⟩ := p
      rw [List.forall_mem_cons, ← ih]
      refine List.append_eq_nil_iff.trans (and_congr_left fun _ => ?_)
      cases (Datum.record members).field? key with
      | none => simp
      | some member => simp [Passes]

theorem check_others {members : List (String × Datum)} :
    check (.others [] rules) (.record members) = [] ↔ ∀ p ∈ members, Passes rules p.2 := by
  change (members.filter (!([] : List String).contains ·.1)).flatMap (fun p =>
    (checkAll rules p.2).map (Finding.under (.key p.1))) = [] ↔ _
  simp [Passes]

theorem check_items {members : List Datum} :
    check (.items rules) (.list members) = [] ↔ ∀ m ∈ members, Passes rules m := by
  have hindexed : ∀ from_, indexed (checkAll rules) from_ members = [] ↔ ∀ m ∈ members, Passes rules m := by
    induction members with
    | nil => simp [indexed]
    | cons m members ih =>
        intro from_
        simp [indexed, ih, Passes]
  exact hindexed 0

theorem same_text {s : String} : d.same (.text s) = true ↔ d = .text s := by
  cases d with
  | text t => exact beq_iff_eq.trans (Datum.text.injEq t s ▸ Iff.rfl)
  | _ => exact ⟨nofun, nofun⟩

theorem check_oneOf {options : List String} :
    check (.oneOf options) d = [] ↔ ∃ s ∈ options, d = .text s := by
  change (if options.any (fun s => d.same (.text s)) then [] else _) = [] ↔ _
  split <;> simp_all [same_text]

theorem check_textNotEmpty {s : String} : check .textNotEmpty (.text s) = [] ↔ s ≠ "" := by
  change emptyFinding (.text s) (s == "") = [] ↔ _
  simp [emptyFinding]

theorem eq_record_of_holds (h : Datum.Shape.record.holds d = true) : ∃ members, d = .record members := by
  cases d with
  | record members => exact ⟨members, rfl⟩
  | _ => cases h

theorem eq_list_of_holds (h : Datum.Shape.list.holds d = true) : ∃ items, d = .list items := by
  cases d with
  | list items => exact ⟨items, rfl⟩
  | _ => cases h

theorem eq_text_of_holds (h : Datum.Shape.text.holds d = true) : ∃ s, d = .text s := by
  cases d with
  | text s => exact ⟨s, rfl⟩
  | _ => cases h

theorem eq_number_of_holds (h : Datum.Shape.integer.holds d = true) : ∃ n, d = .number n := by
  cases d with
  | number n => exact ⟨n, rfl⟩
  | _ => cases h

theorem holds_of_passes {shape : Datum.Shape} {more : List Rule} (h : Passes (.shape [shape] :: more) d) :
    shape.holds d = true := by
  have hshape := check_shape.mp (passes_cons.mp h).1
  simpa using hshape

theorem eq_list_of_passes {more : List Rule} (h : Passes (.shape [.list] :: .items rules :: more) d) :
    ∃ items, d = .list items ∧ ∀ m ∈ items, Passes rules m := by
  obtain ⟨items, rfl⟩ := eq_list_of_holds (holds_of_passes h)
  rw [passes_cons, passes_cons] at h
  exact ⟨items, rfl, check_items.mp h.2.1⟩

end Rule

namespace Catalog.Format

open Rule

variable {d : Datum}

theorem passes_recordOf {needed : List String} {parts : List (String × List Rule)}
    (h : Passes (recordOf needed parts) d) :
    (∃ members, d = .record members) ∧ (∀ name ∈ needed, d.hasField name = true) ∧
      ∀ key {rules}, parts.lookup key = some rules → ∀ {member}, d.field? key = some member →
        Passes rules member := by
  obtain ⟨members, rfl⟩ := eq_record_of_holds (holds_of_passes h)
  simp only [recordOf, passes_cons] at h
  obtain ⟨-, hneeded, -, hparts, -⟩ := h
  refine ⟨⟨members, rfl⟩, check_required.mp hneeded, fun key rules hrules member hmember => ?_⟩
  obtain ⟨before, after, rfl, -⟩ := List.lookup_eq_some_iff.mp hrules
  exact check_fields.mp hparts (key, rules) (by simp) member hmember

theorem passes_needed {needed : List String} {parts : List (String × List Rule)} {rules : List Rule}
    (h : Passes (recordOf needed parts) d) (key : String) (hneeded : key ∈ needed)
    (hrules : parts.lookup key = some rules) :
    ∃ member, d.field? key = some member ∧ Passes rules member := by
  obtain ⟨-, hthere, hparts⟩ := passes_recordOf h
  obtain ⟨member, hmember⟩ := Option.isSome_iff_exists.mp (hthere key hneeded)
  exact ⟨member, hmember, hparts key hrules hmember⟩

theorem passes_needed_oneOf {needed : List String} {parts : List (String × List Rule)}
    {options : List String} (h : Passes (recordOf needed parts) d) (key : String) (hneeded : key ∈ needed)
    (hrules : parts.lookup key = some [.oneOf options]) : ∃ s ∈ options, d.field key = .text s := by
  obtain ⟨member, hmember, hpasses⟩ := passes_needed h key hneeded hrules
  rw [passes_cons, check_oneOf] at hpasses
  obtain ⟨⟨s, hs, rfl⟩, -⟩ := hpasses
  exact ⟨s, hs, by rw [Datum.field, hmember, Option.getD_some]⟩

theorem eq_record_of_passes_kindsOf {rules : List Rule} (h : Passes (kindsOf rules) d) :
    ∃ members, d = .record members :=
  eq_record_of_holds (holds_of_passes h)

theorem eq_record_of_passes_attributesRules (h : Passes attributesRules d) :
    ∃ members, d = .record members :=
  eq_record_of_holds (holds_of_passes h)

theorem passes_kindsOf {rules : List Rule} (h : Passes (kindsOf rules) d) :
    ∀ p ∈ d.fields, Passes rules p.2 := by
  obtain ⟨members, rfl⟩ := eq_record_of_passes_kindsOf h
  simp only [kindsOf, passes_cons] at h
  exact check_others.mp h.2.2.2.1

theorem passes_attributesRules (h : Passes attributesRules d) :
    ∀ p ∈ d.fields, Passes attributeRules p.2 := by
  obtain ⟨members, rfl⟩ := eq_record_of_passes_attributesRules h
  simp only [attributesRules, passes_cons] at h
  exact check_others.mp h.2.2.1

theorem passes_kindList (h : Passes kindList d) :
    ∃ items, d = .list items ∧ ∀ m ∈ items, ∃ kind, m = .text kind := by
  obtain ⟨items, rfl, hitems⟩ := eq_list_of_passes h
  exact ⟨items, rfl, fun m hm => eq_text_of_holds (holds_of_passes (hitems m hm))⟩

end Catalog.Format

end Instrument
