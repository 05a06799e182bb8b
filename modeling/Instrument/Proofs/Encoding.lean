import Instrument.Proofs.Snapshots

namespace Instrument

variable {d : Datum} {key : String}

namespace Datum

def restricted (keys : List String) (d : Datum) : Datum := .record (keys.map fun key => (key, d.field key))

theorem field_of_field? {content : Datum} (h : d.field? key = some content) : d.field key = content := by
  rw [field, h, Option.getD_some]

theorem hasField_of_field? {content : Datum} (h : d.field? key = some content) : d.hasField key = true := by
  rw [hasField, h, Option.isSome_some]

theorem hasField_of_field_eq_text {s : String} (h : d.field key = .text s) : d.hasField key = true := by
  cases hfield : d.field? key with
  | none => simp [field, hfield] at h
  | some content => exact hasField_of_field? hfield

end Datum

namespace Value

variable {v : Value}

def keys : Value → List String
  | literal _ => ["type", "value"]
  | variableRef _ => ["type", "name"]
  | componentRef _ => ["type", "name", "kind"]
  | expression _ => ["type", "source"]
  | unresolved _ => ["type", "text"]

theorem ofRecord_toDatum (v : Value) : ofRecord v.toDatum = .ok v := by
  cases v with
  | componentRef ref =>
      obtain ⟨name, kind⟩ := ref
      rfl
  | _ => rfl

theorem ofDatum_toDatum (v : Value) : ofDatum v.toDatum = .ok (some v) := by
  have hrecord : ofDatum v.toDatum = some <$> ofRecord v.toDatum := by
    cases v <;> rfl
  rw [hrecord, ofRecord_toDatum]
  rfl

theorem map_requiredField_eq_ok {g : Datum → Value} :
    g <$> requiredField key d = .ok v ↔ ∃ content, d.field? key = some content ∧ g content = v := by
  rw [requiredField]
  cases d.field? key <;> simp

theorem restricted_of_ofRecord (h : ofRecord d = .ok v) :
    v.toDatum = d.restricted v.keys ∧ ∀ key ∈ v.keys, key ≠ "kind" → d.hasField key = true := by
  unfold ofRecord at h
  split at h
  case h_6 => cases h
  all_goals
    next htype =>
    obtain ⟨content, hcontent, rfl⟩ := map_requiredField_eq_ok.mp h
    have htypeField := Datum.hasField_of_field_eq_text htype
    constructor
    · simp [Datum.restricted, keys, toDatum, ComponentRef.toDatum, htype, Datum.field_of_field? hcontent]
    · simp [keys, htypeField, Datum.hasField_of_field? hcontent]

example : ofRecord (.record [("name", .text "wobble"), ("depth", .int 3), ("type", .text "component_ref")]) =
    .ok (.componentRef (.named "wobble")) := rfl

theorem not_isRecordForm_of_ofRecord (h : ofRecord d = .ok v) : Attribute.isRecordForm d = false := by
  have htype : d.hasField "type" = true :=
    (restricted_of_ofRecord h).2 "type" (by cases v <;> simp [keys]) (by decide)
  simp [Attribute.isRecordForm, htype]

theorem ofDatum_ofOption (given : Option Value) : ofDatum (ofOption given) = .ok given := by
  cases given with
  | none => rfl
  | some v => exact ofDatum_toDatum v

end Value

namespace Attribute

def given (a : Attribute) : Datum := .assigned (Value.given a.value) (ComponentRef.given a.modulation)

theorem ofDatum_given (a : Attribute) : ofDatum a.given = .ok a := ofParts_given a

theorem isRecordForm_toDatum (a : Attribute) : isRecordForm a.toDatum = true := rfl

theorem ofDatum_toDatum (a : Attribute) : ofDatum a.toDatum = .ok a := by
  obtain ⟨value, modulation⟩ := a
  have hvalue := Value.ofDatum_ofOption value
  cases modulation with
  | none =>
      change (Value.ofDatum (Value.ofOption value) >>= fun v => .ok (mk v none)) = _
      rw [hvalue]
      rfl
  | some ref =>
      have hmodulation : modulationOf ref.toDatum = .ok (some ref) := by
        change (Value.ofDatum (Value.componentRef ref).toDatum >>= _) = _
        rw [Value.ofDatum_toDatum]
        rfl
      change (modulationOf ref.toDatum >>= fun m =>
        Value.ofDatum (Value.ofOption value) >>= fun v => .ok (mk v m)) = _
      rw [hmodulation]
      change (Value.ofDatum (Value.ofOption value) >>= fun v => .ok (mk v (some ref))) = _
      rw [hvalue]
      rfl

theorem ofDatum_value_toDatum (v : Value) : ofDatum v.toDatum = .ok ⟨some v, none⟩ := by
  have hread : ofDatum v.toDatum = (Value.ofDatum v.toDatum >>= fun given => .ok ⟨given, none⟩) := by
    cases v <;> rfl
  rw [hread, Value.ofDatum_toDatum]
  rfl

end Attribute

def Cell.given : Cell → Datum
  | .ok a => a.given
  | .error (.foreign value modulation) => .assigned value modulation
  | .error _ => .null

theorem Cell.ofDatum_given {cell : Cell} (h : Cell.ofDatum d = .ok cell) :
    Cell.ofDatum cell.given = .ok cell := by
  unfold Cell.ofDatum at h
  split at h
  · next a _ =>
      cases h
      rw [Cell.given, Cell.ofDatum, Attribute.ofDatum_given]
  · next value modulation hforeign =>
      cases h
      have hparts : Attribute.ofDatum (.assigned value modulation) = .error (.foreign value modulation) :=
        Attribute.ofDatum_foreign hforeign
      rw [Cell.given, Cell.ofDatum, hparts]
  · cases h

/-- A value and an attribute are read back from their records as they were, and what has been read from
any datum stands for itself. The other way round, a record that can be read as a value holds what its
type asks for, and the value writes just these fields, nothing standing for a kind that is missing. No
record can be read both as a value and as an attribute of two parts. -/
theorem encoding_round_trips :
    (∀ v : Value, Value.ofRecord v.toDatum = .ok v ∧ Value.ofDatum v.toDatum = .ok (some v)) ∧
    (∀ a : Attribute, Attribute.ofDatum a.toDatum = .ok a) ∧
    (∀ d a, Attribute.ofDatum d = .ok a → Attribute.ofDatum a.given = .ok a) ∧
    (∀ d cell, Cell.ofDatum d = .ok cell → Cell.ofDatum cell.given = .ok cell) ∧
    (∀ d v, Value.ofRecord d = .ok v → v.toDatum = d.restricted v.keys ∧
      ∀ key ∈ v.keys, key ≠ "kind" → d.hasField key = true) ∧
    (∀ d v, Value.ofRecord d = .ok v → Attribute.isRecordForm d = false) ∧
    (∀ v : Value, Attribute.ofDatum v.toDatum = .ok ⟨some v, none⟩) ∧
    ∀ a : Attribute, Attribute.isRecordForm a.toDatum = true ∧ ∀ v, Value.ofRecord a.toDatum ≠ .ok v := by
  refine ⟨fun v => ⟨Value.ofRecord_toDatum v, Value.ofDatum_toDatum v⟩, Attribute.ofDatum_toDatum,
    fun _ a _ => a.ofDatum_given, fun _ _ h => Cell.ofDatum_given h,
    fun _ _ h => Value.restricted_of_ofRecord h, fun _ _ h => Value.not_isRecordForm_of_ofRecord h,
    Attribute.ofDatum_value_toDatum, fun a => ⟨a.isRecordForm_toDatum, fun v hv => ?_⟩⟩
  cases (Value.not_isRecordForm_of_ofRecord hv).symm.trans a.isRecordForm_toDatum

end Instrument
