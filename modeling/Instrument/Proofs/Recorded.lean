import Instrument.Proofs.Assignments
import Instrument.Proofs.Refusal

namespace Instrument.Document

open Text

def Complaint.legacy? : Complaint → Option (String × String)
  | .modulatorMoved attr name _ => some (attr, name)
  | .alreadyModulated attr name => some (attr, name)
  | _ => none

theorem legacy?_bindWord_of_settled {strict : Bool} {owner : Owner} {attr : String}
    {schema : AttributeSchema} {current : Attribute} {word : String} {info : NameInfo}
    (h : (info.isVariable || schema.isReference) = true) {complaint : Complaint}
    (hcomplaint : (bindWord strict owner attr schema current word (some info)).complaint = some complaint) :
    complaint.legacy? = none := by
  simp only [bindWord, bindComponent, refusal] at hcomplaint
  cases hvariable : info.isVariable with
  | true =>
      rw [hvariable, if_pos rfl] at hcomplaint
      split at hcomplaint
      · cases hcomplaint
      · cases hcomplaint
        rfl
  | false =>
      have href : schema.isReference = true := by simpa [hvariable] using h
      simp only [hvariable, href, Bool.false_eq_true, if_false, if_true] at hcomplaint
      repeat' split at hcomplaint
      all_goals cases hcomplaint <;> rfl

section Assigning

variable {strict : Bool} {owner : Owner} {attr : String} {current : Attribute} {info : Option NameInfo}

theorem assignTyped_quiet (attr : String) (schema : AttributeSchema) (current : Attribute)
    (text : List Char) :
    (assignTyped attr schema current text).attr.modulation = current.modulation ∧
      ∀ complaint ∈ (assignTyped attr schema current text).complaints, complaint.legacy? = none := by
  simp only [assignTyped, choose, measure]
  repeat' split
  all_goals exact ⟨rfl, by simp [Assigned.clean, Complaint.legacy?]⟩

theorem modulation_bindWord_of_settled {schema : AttributeSchema} {word : String} {i : NameInfo}
    (h : (i.isVariable || schema.isReference) = true) :
    (bindWord strict owner attr schema current word (some i)).attr.modulation = current.modulation := by
  rw [bindWord_attr, boundAtOnce_of_settled h]

theorem assign_quiet (strict : Bool) (owner : Owner) (attr : String) (schema : Option AttributeSchema)
    (current : Attribute) (text : List Char) (info : Option NameInfo) :
    (assign strict owner attr schema current text info).attr.modulation = current.modulation ∧
      ∀ complaint ∈ (assign strict owner attr schema current text info).complaints,
        complaint.legacy? = none := by
  cases schema with
  | none => exact ⟨rfl, by simp [assign, Assigned.clean]⟩
  | some schema =>
      have htyped := assignTyped_quiet attr schema current text
      simp only [assign, assignName]
      split
      · split
        · split
          · next hany =>
              cases info with
              | none => simp at hany
              | some i =>
                  rw [Option.any_some] at hany
                  refine ⟨modulation_bindWord_of_settled hany, ?_⟩
                  intro complaint hcomplaint
                  exact legacy?_bindWord_of_settled hany (Option.mem_toList.1 hcomplaint)
          · split
            · exact htyped
            · exact ⟨rfl, by simp [Assigned.clean]⟩
        · split
          · split
            · exact ⟨rfl, by simp [Complaint.legacy?]⟩
            · refine ⟨htyped.1, ?_⟩
              simp only [Assigned.complain, List.forall_mem_cons]
              exact ⟨rfl, htyped.2⟩
          · exact htyped
      · exact htyped

end Assigning

namespace Reader

variable {c : Catalog} {strict : Bool} {r r' r'' : Reader} {assigned attached : AttributeLines}
  {owner : Owner} {attr : String}

structure Records (assigned attached : AttributeLines) (r r' : Reader) : Prop where
  line_eq : r'.line = r.line
  issues_eq : ∃ complaints : List Complaint, (∀ complaint ∈ complaints, complaint.legacy? = none) ∧
    r'.issues = r.issues ++ complaints.map (⟨r.line, ·⟩)
  attributeLines_eq : r'.attributeLines = assigned ++ r.attributeLines
  modulationLines_eq : r'.modulationLines = attached ++ r.modulationLines

theorem Records.of_eq (hline : r'.line = r.line) (hissues : r'.issues = r.issues)
    (hattributes : r'.attributeLines = assigned ++ r.attributeLines)
    (hmodulations : r'.modulationLines = attached ++ r.modulationLines) :
    Records assigned attached r r' :=
  ⟨hline, ⟨[], by simp, by simp [hissues]⟩, hattributes, hmodulations⟩

theorem Records.refl (r : Reader) : Records [] [] r r := .of_eq rfl rfl rfl rfl

theorem Records.then (h : Records [] [] r r') (h' : Records assigned attached r' r'') :
    Records assigned attached r r'' where
  line_eq := h'.line_eq.trans h.line_eq
  issues_eq := by
    obtain ⟨first, hquiet, hfirst⟩ := h.issues_eq
    obtain ⟨second, hquiet', hsecond⟩ := h'.issues_eq
    refine ⟨first ++ second, ?_, ?_⟩
    · intro complaint hmem
      exact (List.mem_append.1 hmem).elim (hquiet complaint) (hquiet' complaint)
    · rw [hsecond, hfirst, h.line_eq, List.map_append, List.append_assoc]
  attributeLines_eq := by rw [h'.attributeLines_eq, h.attributeLines_eq, List.nil_append]
  modulationLines_eq := by rw [h'.modulationLines_eq, h.modulationLines_eq, List.nil_append]

theorem records_complain {complaint : Complaint} (h : complaint.legacy? = none) :
    Records [] [] r (r.complain complaint) :=
  ⟨rfl, ⟨[complaint], by simpa using h, rfl⟩, rfl, rfl⟩

theorem records_refuse {complaint : Complaint} (h : complaint.legacy? = none) (indent : Nat) :
    Records [] [] r (r.refuse indent complaint) :=
  ⟨rfl, ⟨[complaint], by simpa using h, rfl⟩, rfl, rfl⟩

theorem records_follow {α : Type} (outcome : Outcome α) : Records [] [] r (r.follow outcome) :=
  .of_eq rfl rfl rfl rfl

theorem records_declareHere (name : String) (value : Value) (range : Option Interval) :
    Records [] [] r (r.declareHere c name value range) := by
  simp only [declareHere, declareGlobal, declareIn]
  split
  · split
    · exact records_follow _
    · exact (records_follow _).then (records_complain rfl)
  · split
    · exact records_follow _
    · split
      · exact records_complain rfl
      · split
        · exact records_complain rfl
        · split
          · exact (records_complain rfl).then (records_follow _)
          · exact records_follow _

theorem records_declare (content : List Char) : Records [] [] r (r.declare c content) := by
  simp only [declare]
  split
  · exact records_complain rfl
  · next name text _ =>
      refine Records.then ?_ (records_declareHere name _ _)
      split
      · exact records_complain rfl
      · exact .refl r

theorem records_openTrigger (indent : Nat) (content : List Char) :
    Records [] [] r (r.openTrigger c indent content) := by
  have henter (told : Reader) (kind : String) (name : Option String) :
      Records [] [] told (told.enter kind name indent) := .of_eq rfl rfl rfl rfl
  simp only [openTrigger]
  split
  · exact records_refuse rfl _
  · split
    · split
      · exact records_refuse rfl _
      · split
        · exact records_refuse rfl _
        · exact henter ..
    · split
      · exact henter ..
      · exact (records_complain rfl).then (henter ..)

theorem records_openComponent (indent : Nat) (content : List Char) :
    Records [] [] r (r.openComponent c indent content) := by
  have hadd (kind name : String) (scope : ScopeKind) (key : Option String) :
      Records [] [] r (r.addComponent kind name indent scope key) := by
    simp only [addComponent]
    split
    · exact .of_eq rfl rfl rfl rfl
    · exact (records_follow _).then (records_refuse rfl _)
  simp only [openComponent]
  split
  · exact records_refuse rfl _
  · split
    · exact records_refuse rfl _
    · split
      · exact hadd ..
      · split
        · exact records_refuse rfl _
        · exact hadd ..

theorem records_complainAll {complaints : List Complaint}
    (h : ∀ complaint ∈ complaints, complaint.legacy? = none) :
    Records [] [] r (r.complainAll complaints) := by
  rw [complainAll_eq]
  exact ⟨rfl, ⟨complaints, h, rfl⟩, rfl, rfl⟩

theorem records_writeLine (indent : Nat) (owner : Owner) (attr : String) (text : List Char) :
    Records [((owner, attr), r.line)] [] r (r.writeLine c strict indent owner attr text) := by
  have hquiet := (assign_quiet strict owner attr (schemaOf c owner attr) (r.store.read owner attr) text
    (r.store.nameInfo? (String.ofList text))).2
  have htold : Records [] []
      r (if (schemaOf c owner attr).isNone then r.complain (.unknownAttribute attr owner.kind) else r) := by
    split
    · exact records_complain rfl
    · exact .refl r
  have hall := htold.then (records_complainAll hquiet)
  refine ⟨hall.line_eq, hall.issues_eq, ?_, hall.modulationLines_eq⟩
  rfl

def attachment? (c : Catalog) (line : List Char) (r : Reader) : Option ((Owner × String) × String) :=
  if r.passes line = false ∧ r.kindOf c line = .modulation then
    match words (strip line) with
    | [_, name] => (r.ready line).attr.map fun cursor => ((cursor.owner, cursor.name), String.ofList name)
    | _ => none
  else none

theorem step_of_attachment? (strict : Bool) {line : List Char} {name : String}
    (h : r.attachment? c line = some ((owner, attr), name)) :
    ∃ cursor, (r.ready line).attr = some cursor ∧ cursor.owner = owner ∧ cursor.name = attr ∧
      r.step c strict line = (r.ready line).attach name := by
  simp only [attachment?] at h
  split at h
  · next hreads =>
      obtain ⟨hpasses, hkind⟩ := hreads
      split at h
      · next first name' hwords =>
          obtain ⟨cursor, hcursor, heq⟩ := Option.map_eq_some_iff.1 h
          cases heq
          refine ⟨cursor, hcursor, rfl, rfl, ?_⟩
          rw [step_of_kindOf hpasses hkind]
          simp only [act, modulate, hwords]
      · cases h
  · cases h

theorem step_of_no_attachment (strict : Bool) {line : List Char} (hpasses : r.passes line = false)
    (hkind : r.kindOf c line = .modulation) (h : r.attachment? c line = none) :
    ∃ complaint : Complaint, complaint.legacy? = none ∧
      r.step c strict line = (r.ready line).complain complaint := by
  simp only [attachment?, if_pos (And.intro hpasses hkind)] at h
  rw [step_of_kindOf hpasses hkind]
  simp only [act, modulate]
  split at h
  · next first name hwords =>
      rw [Option.map_eq_none_iff] at h
      simp only [hwords, attach, h]
      exact ⟨_, rfl, rfl⟩
  · next hwords =>
      split
      · exact ⟨_, rfl, rfl⟩
      · exact ⟨_, rfl, rfl⟩
      · next first name heq => exact absurd heq (hwords first name)
      · exact ⟨_, rfl, rfl⟩

theorem step_of_no_assignment (strict : Bool) {line : List Char} (hpasses : r.passes line = false)
    (hkind : r.kindOf c line = .assignment) (h : r.assignment? c line = none) :
    ∃ complaint : Complaint, complaint.legacy? = none ∧
      r.step c strict line = (r.ready line).complain complaint := by
  rw [step_of_kindOf hpasses hkind]
  simp only [act, assignLine]
  cases howner : (r.ready line).owner with
  | none => exact ⟨_, rfl, rfl⟩
  | some who =>
      simp only
      split
      · exact ⟨_, rfl, rfl⟩
      · split
        · exact ⟨_, rfl, rfl⟩
        · simp_all [assignment?, kindOf]

theorem kindOf_of_assignment? {line : List Char} {given : (Owner × String) × List Char}
    (h : r.assignment? c line = some given) :
    r.passes line = false ∧ r.kindOf c line = .assignment := by
  simp only [assignment?] at h
  split at h
  · next hreads => exact ⟨hreads.1, hreads.2.1⟩
  · cases h

theorem kindOf_of_attachment? {line : List Char} {given : (Owner × String) × String}
    (h : r.attachment? c line = some given) :
    r.passes line = false ∧ r.kindOf c line = .modulation := by
  simp only [attachment?] at h
  split at h
  · assumption
  · cases h

theorem assignment?_of_kindOf {line : List Char} (h : r.kindOf c line ≠ .assignment) :
    r.assignment? c line = none := by
  rw [Option.eq_none_iff_forall_ne_some]
  exact fun given hgiven => h (kindOf_of_assignment? hgiven).2

theorem attachment?_of_kindOf {line : List Char} (h : r.kindOf c line ≠ .modulation) :
    r.attachment? c line = none :=
  if_neg fun hreads => h hreads.2

theorem attachment?_of_assignment? {line : List Char} {given : (Owner × String) × List Char}
    (h : r.assignment? c line = some given) : r.attachment? c line = none := by
  exact attachment?_of_kindOf (by simp [(kindOf_of_assignment? h).2])

theorem assignment?_of_attachment? {line : List Char} {given : (Owner × String) × String}
    (h : r.attachment? c line = some given) : r.assignment? c line = none := by
  exact assignment?_of_kindOf (by simp [(kindOf_of_attachment? h).2])

/-- The lines that are written down for a line: it gave a value to an attribute, a modulator, or
nothing. -/
theorem records_step (strict : Bool) (line : List Char) :
    Records ((r.assignment? c line).map fun given => (given.1, r.line + 1)).toList
      ((r.attachment? c line).map fun given => (given.1, r.line + 1)).toList
      { r with line := r.line + 1 } (r.step c strict line) := by
  cases hpasses : r.passes line with
  | true =>
      rw [step_of_passes hpasses]
      have hnone : r.assignment? c line = none ∧ r.attachment? c line = none := by
        simp [assignment?, attachment?, hpasses]
      rw [hnone.1, hnone.2]
      exact .refl _
  | false =>
      have hready : Records [] [] { r with line := r.line + 1 } (r.ready line) := by
        rw [ready, settle_eq]
        exact .of_eq rfl rfl rfl rfl
      have hline : (r.ready line).line = r.line + 1 := hready.line_eq
      refine hready.then ?_
      cases hkind : r.kindOf c line with
      | assignment =>
          have hattached : r.attachment? c line = none := attachment?_of_kindOf (by simp [hkind])
          cases hassigned : r.assignment? c line with
          | none =>
              obtain ⟨complaint, hquiet, hstep⟩ := step_of_no_assignment strict hpasses hkind hassigned
              rw [hattached, hstep]
              exact records_complain hquiet
          | some given =>
              obtain ⟨⟨who, attr'⟩, text⟩ := given
              obtain ⟨-, hstep⟩ := step_of_assignment? strict hassigned
              rw [hattached, hstep, ← hline]
              exact records_writeLine ..
      | modulation =>
          have hassigned : r.assignment? c line = none := assignment?_of_kindOf (by simp [hkind])
          cases hattached : r.attachment? c line with
          | none =>
              obtain ⟨complaint, hquiet, hstep⟩ := step_of_no_attachment strict hpasses hkind hattached
              rw [hassigned, hstep]
              exact records_complain hquiet
          | some given =>
              obtain ⟨⟨who, attr'⟩, name⟩ := given
              obtain ⟨cursor, hcursor, rfl, rfl, hstep⟩ := step_of_attachment? strict hattached
              rw [hassigned, hstep, attach, hcursor, ← hline]
              exact .of_eq rfl rfl rfl rfl
      | declaration | trigger | component =>
          rw [assignment?_of_kindOf (by simp [hkind]), attachment?_of_kindOf (by simp [hkind]),
            step_of_kindOf hpasses hkind]
          first
          | exact records_declare _
          | exact records_openTrigger ..
          | exact records_openComponent ..

structure WithinLines (r : Reader) : Prop where
  issues : ∀ issue ∈ r.issues, 0 < issue.line ∧ issue.line ≤ r.line
  quiet : ∀ issue ∈ r.issues, issue.complaint.legacy? = none
  attributes : ∀ entry ∈ r.attributeLines, 0 < entry.2 ∧ entry.2 ≤ r.line
  modulations : ∀ entry ∈ r.modulationLines, 0 < entry.2 ∧ entry.2 ≤ r.line

theorem withinLines_start : WithinLines start := by
  constructor <;> simp [start]

theorem WithinLines.step (h : WithinLines r) (line : List Char) : WithinLines (r.step c strict line) := by
  have hrecords := @records_step c r strict line
  obtain ⟨complaints, hquiet, hissues⟩ := hrecords.issues_eq
  have hline : (r.step c strict line).line = r.line + 1 := hrecords.line_eq
  constructor
  · intro issue hissue
    rw [hissues, List.mem_append, List.mem_map] at hissue
    rw [hline]
    rcases hissue with hold | ⟨complaint, -, rfl⟩
    · obtain ⟨hpos, hle⟩ := h.issues issue hold
      exact ⟨hpos, by omega⟩
    · exact ⟨Nat.succ_pos _, Nat.le_refl _⟩
  · intro issue hissue
    rw [hissues, List.mem_append, List.mem_map] at hissue
    rcases hissue with hold | ⟨complaint, hmem, rfl⟩
    · exact h.quiet issue hold
    · exact hquiet complaint hmem
  · intro entry hentry
    rw [hrecords.attributeLines_eq, List.mem_append, Option.mem_toList, Option.map_eq_some_iff] at hentry
    rw [hline]
    rcases hentry with ⟨given, -, rfl⟩ | hold
    · exact ⟨Nat.succ_pos _, Nat.le_refl _⟩
    · obtain ⟨hpos, hle⟩ := h.attributes entry hold
      exact ⟨hpos, by omega⟩
  · intro entry hentry
    rw [hrecords.modulationLines_eq, List.mem_append, Option.mem_toList, Option.map_eq_some_iff] at hentry
    rw [hline]
    rcases hentry with ⟨given, -, rfl⟩ | hold
    · exact ⟨Nat.succ_pos _, Nat.le_refl _⟩
    · obtain ⟨hpos, hle⟩ := h.modulations entry hold
      exact ⟨hpos, by omega⟩

theorem withinLines_readLines (c : Catalog) (strict : Bool) (lines : List (List Char)) :
    ∀ {r}, WithinLines r → WithinLines (readLines c strict r lines) :=
  readLines_keeps (fun line h => h.step line) lines

end Reader

end Instrument.Document
