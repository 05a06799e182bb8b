import Instrument.Catalog.Loading
import Instrument.Proofs.Evaluation
import Instrument.Proofs.Formats

namespace Instrument

theorem AttributeType.eq_name_of_ofDatum? {d : Datum} {type : AttributeType}
    (h : AttributeType.ofDatum? d = some type) : d = .text type.name := by
  cases d with
  | text s =>
      have hname := List.find?_some h
      exact congrArg Datum.text (beq_iff_eq.mp hname).symm
  | _ => cases h

namespace Catalog

open Rule Format

def describedKinds (d : Datum) : List (String × Datum) :=
  (d.field "components").fields ++ (d.field "triggers").fields

def Describes (d : Datum) (owner attr : String) (spec : Datum) : Prop :=
  ∃ kind, (owner, kind) ∈ describedKinds d ∧ (attr, spec) ∈ (kind.field "attributes").fields

/-- Faults that lie in what a catalog file means, each with the description at fault. -/
inductive SemanticFault (d : Datum) : LoadError → Prop
  | noValues {owner attr : String} {spec : Datum} (described : Describes d owner attr spec)
      (type : spec.field "type" = .text "enum")
      (values : (spec.field? "values").getD (.list []) = .list [])
      (chords : spec.field "valuesFrom" ≠ .text "chords") : SemanticFault d (.noValues owner attr)
  | attributesForbidden {kind : String} {spec : Datum}
      (described : (kind, spec) ∈ (d.field "triggers").fields)
      (attributes : (spec.field "attributes").fields ≠ [])
      (leave : spec.field "canHaveAttributes" ≠ .bool true) : SemanticFault d (.attributesForbidden kind)
  | unknownKind {owner attr list kind : String} {spec : Datum} {kinds : List Datum}
      (described : Describes d owner attr spec)
      (accepts : list = "acceptsComponents" ∨ list = "acceptsModulation")
      (listed : spec.field list = .list kinds) (mem : .text kind ∈ kinds)
      (unknown : kind ∉ (d.field "components").fields.map Prod.fst) :
      SemanticFault d (.unknownKind owner attr (.text kind))
  | acceptsNothing {owner attr : String} {spec : Datum} (described : Describes d owner attr spec)
      (type : spec.field "type" = .text "component_ref")
      (accepts : (spec.field? "acceptsComponents").getD (.list []) = .list []) :
      SemanticFault d (.acceptsNothing owner attr)

/-- Such faults are of the foreseen ones. -/
theorem SemanticFault.isForeseen {d : Datum} {fault : LoadError} (h : SemanticFault d fault) :
    fault.isForeseen = true := by
  cases h <;> rfl

def FailsOnly {α : Type} (Q : LoadError → Prop) (x : Except LoadError α) : Prop :=
  ∀ ⦃e⦄, x = .error e → Q e

section FailsOnly

variable {α β : Type} {Q : LoadError → Prop}

theorem failsOnly_ok (a : α) : FailsOnly Q (.ok a) := by
  intro e h
  cases h

theorem failsOnly_error {e : LoadError} (h : Q e) : FailsOnly Q (.error e : Except LoadError α) := by
  rintro _ ⟨⟩
  exact h

theorem ok_bind (a : α) (f : α → Except LoadError β) : (.ok a >>= f) = f a := rfl

theorem FailsOnly.bind {x : Except LoadError α} {f : α → Except LoadError β} (hx : FailsOnly Q x)
    (hf : ∀ a, x = .ok a → FailsOnly Q (f a)) : FailsOnly Q (x >>= f) := by
  intro e h
  rcases Expr.bind_eq_error.mp h with h | ⟨a, ha, h⟩
  · exact hx h
  · exact hf a ha h

theorem failsOnly_loadEntries {load : String → Datum → Except LoadError α}
    {entries : List (String × Datum)} (h : ∀ p ∈ entries, FailsOnly Q (load p.1 p.2))
    (loaded : Table α) : FailsOnly Q (loadEntries load loaded entries) := by
  induction entries generalizing loaded with
  | nil => exact failsOnly_ok _
  | cons p entries ih =>
      rw [List.forall_mem_cons] at h
      simp only [loadEntries]
      cases hp : load p.1 p.2 with
      | error e => exact failsOnly_error (h.1 hp)
      | ok a => exact ih h.2 _

theorem failsOnly_forM {items : List α} {f : α → Except LoadError Unit}
    (h : ∀ a ∈ items, FailsOnly Q (f a)) : FailsOnly Q (items.forM f) := by
  induction items with
  | nil => exact failsOnly_ok _
  | cons a items ih =>
      rw [List.forall_mem_cons] at h
      exact h.1.bind fun _ _ => ih h.2

end FailsOnly

theorem contains_loadEntries {α : Type} {load : String → Datum → Except LoadError α}
    {entries : List (String × Datum)} {loaded all : Table α}
    (h : loadEntries load loaded entries = .ok all) {key : String}
    (hkey : key ∈ entries.map Prod.fst ∨ loaded.contains key = true) : all.contains key = true := by
  induction entries generalizing loaded with
  | nil =>
      cases h
      simpa using hkey
  | cons p entries ih =>
      simp only [loadEntries] at h
      cases hp : load p.1 p.2 with
      | error e => simp [hp] at h
      | ok a =>
          simp only [hp] at h
          apply ih h
          simp only [List.map_cons, List.mem_cons, Table.contains, Table.get?_insert] at hkey ⊢
          split <;> simp_all

theorem isEmpty_loadEntries {α : Type} {load : String → Datum → Except LoadError α}
    {entries : List (String × Datum)} {all : Table α}
    (h : loadEntries load .empty entries = .ok all) (hall : all.isEmpty = false) : entries ≠ [] := by
  rintro rfl
  cases h
  cases hall

theorem membersAt_eq {key : String} {d : Datum} {Q : Datum → Prop}
    (h : ∀ member, d.field? key = some member → ∃ items, member = .list items ∧ ∀ m ∈ items, Q m) :
    ∃ items, membersAt key d = .ok items ∧ (∀ m ∈ items, Q m) ∧
      (d.field? key).getD (.list []) = .list items := by
  unfold membersAt
  cases hkey : d.field? key with
  | none => exact ⟨[], rfl, by simp, rfl⟩
  | some member =>
      obtain ⟨items, rfl, hitems⟩ := h member hkey
      exact ⟨items, rfl, hitems, rfl⟩

theorem requireMapping_eq {method : String} {d : Datum} (h : ∃ members, d = .record members) :
    requireMapping method d = .ok () := by
  obtain ⟨members, rfl⟩ := h
  rfl

theorem requireMapping_field {method key : String} {d : Datum} {needed : List String}
    {parts : List (String × List Rule)} {rules : List Rule} (h : Passes (recordOf needed parts) d)
    (hkey : parts.lookup key = some rules)
    (hrules : ∀ {member}, Passes rules member → ∃ members, member = .record members) :
    requireMapping method (d.field key) = .ok () := by
  unfold Datum.field
  cases hmember : d.field? key with
  | none => rfl
  | some member => exact requireMapping_eq (hrules ((passes_recordOf h).2.2 _ hkey hmember))

theorem loadReferences_eq (owner attr : String) {items : List Datum}
    (h : ∀ m ∈ items, ∃ type, AttributeType.ofDatum? m = some type) :
    ∃ types, loadReferences owner attr items = .ok types := by
  induction items with
  | nil => exact ⟨[], rfl⟩
  | cons m items ih =>
      rw [List.forall_mem_cons] at h
      obtain ⟨type, htype⟩ := h.1
      obtain ⟨types, htypes⟩ := ih h.2
      refine ⟨type :: types, ?_⟩
      simp only [loadReferences, htype, htypes]
      rfl

section Attribute

variable {d spec : Datum} {owner attr : String}

theorem type_of_passes (h : Passes attributeRules spec) :
    ∃ type, AttributeType.ofDatum? (spec.field "type") = some type := by
  obtain ⟨s, hs, hfield⟩ := passes_needed_oneOf h "type" (by simp) rfl
  rw [hfield]
  simp only [List.mem_cons, List.not_mem_nil, or_false] at hs
  rcases hs with rfl | rfl | rfl | rfl | rfl | rfl | rfl | rfl | rfl <;> exact ⟨_, rfl⟩

theorem kinds_of_passes (h : Passes attributeRules spec) (key : String)
    (hkey : attributeFields.lookup key = some kindList) :
    ∃ items, membersAt key spec = .ok items ∧ (∀ m ∈ items, ∃ kind, m = .text kind) ∧
      (spec.field? key).getD (.list []) = .list items :=
  membersAt_eq fun _ hmember => passes_kindList ((passes_recordOf h).2.2 _ hkey hmember)

theorem values_of_passes (h : Passes attributeRules spec) :
    ∃ items, membersAt "values" spec = .ok items ∧
      (spec.field? "values").getD (.list []) = .list items := by
  obtain ⟨items, hitems, -, hfield⟩ := membersAt_eq (Q := fun _ => True) fun member hmember => by
    have hvalues := (passes_recordOf h).2.2 "values" rfl hmember
    obtain ⟨items, hitems, -⟩ := eq_list_of_passes hvalues
    exact ⟨items, hitems, fun _ _ => trivial⟩
  exact ⟨items, hitems, hfield⟩

theorem references_of_passes (h : Passes attributeRules spec) (owner attr : String) :
    ∃ items types, membersAt "canReference" spec = .ok items ∧
      loadReferences owner attr items = .ok types := by
  obtain ⟨items, hitems, htypes, -⟩ := membersAt_eq
      (Q := fun m => ∃ type, AttributeType.ofDatum? m = some type) fun member hmember => by
    obtain ⟨items, rfl, hitems⟩ := eq_list_of_passes ((passes_recordOf h).2.2 "canReference" rfl hmember)
    refine ⟨items, rfl, fun m hm => ?_⟩
    obtain ⟨s, hs, rfl⟩ := check_oneOf.mp (passes_cons.mp (hitems m hm)).1
    simp only [List.mem_cons, List.not_mem_nil, or_false] at hs
    rcases hs with rfl | rfl <;> exact ⟨_, rfl⟩
  obtain ⟨types, hload⟩ := loadReferences_eq owner attr htypes
  exact ⟨items, types, hitems, hload⟩

theorem failsOnly_loadAttribute (chords : Table (List Int)) (h : Passes attributeRules spec)
    (hspec : Describes d owner attr spec) :
    FailsOnly (SemanticFault d) (loadAttribute chords owner attr spec) := by
  obtain ⟨type, htype⟩ := type_of_passes h
  obtain ⟨written, hwritten, hfield⟩ := values_of_passes h
  obtain ⟨items, types, hitems, htypes⟩ := references_of_passes h owner attr
  obtain ⟨direct, hdirect, -, -⟩ := kinds_of_passes h "acceptsComponents" rfl
  obtain ⟨moving, hmoving, -, -⟩ := kinds_of_passes h "acceptsModulation" rfl
  obtain ⟨values, hvalues, hempty⟩ : ∃ values, listedValues chords spec = .ok values ∧
      (values = [] → written = [] ∧ spec.field "valuesFrom" ≠ .text "chords") := by
    simp only [listedValues, hwritten, bind, Except.bind]
    split
    · exact ⟨_, rfl, by simp⟩
    · next hfrom => exact ⟨_, rfl, fun h => ⟨h, hfrom⟩⟩
  intro e he
  simp only [loadAttribute, requireMapping_eq (passes_recordOf h).1, htype, hvalues, hitems, htypes,
    hdirect, hmoving, bind, Except.bind] at he
  split at he
  · next hchoice =>
      cases he
      simp only [Bool.and_eq_true, beq_iff_eq, List.isEmpty_iff] at hchoice
      obtain ⟨rfl, hnone⟩ := hchoice
      obtain ⟨rfl, hfrom⟩ := hempty hnone
      exact .noValues hspec (AttributeType.eq_name_of_ofDatum? htype) hfield hfrom
  · cases he

theorem failsOnly_checkKinds {Q : LoadError → Prop} {components : Table ComponentSchema}
    {kinds : List Datum} (htext : ∀ m ∈ kinds, ∃ kind, m = .text kind)
    (hQ : ∀ kind, .text kind ∈ kinds → components.contains kind = false →
      Q (.unknownKind owner attr (.text kind))) :
    FailsOnly Q (checkKinds components owner attr kinds) := by
  induction kinds with
  | nil => exact failsOnly_ok _
  | cons m kinds ih =>
      rw [List.forall_mem_cons] at htext
      obtain ⟨kind, rfl⟩ := htext.1
      simp only [checkKinds]
      split
      · exact ih htext.2 fun other hmem => hQ other (List.mem_cons_of_mem _ hmem)
      · next hunknown => exact failsOnly_error (hQ kind (by simp) (by simpa using hunknown))

/-- What an attribute of valid form accepts are kinds that are there, or the fault is one of meaning. -/
theorem failsOnly_checkAttribute {components : Table ComponentSchema}
    (hcomponents : ∀ kind ∈ (d.field "components").fields.map Prod.fst, components.contains kind = true)
    (h : Passes attributeRules spec) (hspec : Describes d owner attr spec) :
    FailsOnly (SemanticFault d) (checkAttribute components owner attr spec) := by
  obtain ⟨direct, hdirect, hkinds, hfield⟩ := kinds_of_passes h "acceptsComponents" rfl
  obtain ⟨moving, hmoving, hkinds', hfield'⟩ := kinds_of_passes h "acceptsModulation" rfl
  have hlisted : ∀ {list kinds kind}, (spec.field? list).getD (.list []) = .list kinds →
      .text kind ∈ kinds → spec.field list = .list kinds := by
    intro list kinds kind hlist hmem
    unfold Datum.field
    cases hget : spec.field? list with
    | none =>
        rw [hget] at hlist
        cases hlist
        cases hmem
    | some member => simpa [hget] using hlist
  rw [checkAttribute, hdirect, hmoving]
  change FailsOnly _ (checkKinds _ _ _ _ >>= _)
  refine FailsOnly.bind (failsOnly_checkKinds ?_ ?_) fun _ _ => ?_
  · intro m hm
    exact (List.mem_append.mp hm).elim (hkinds m) (hkinds' m)
  · intro kind hkind hunknown
    have hmissing : kind ∉ (d.field "components").fields.map Prod.fst := by
      intro hmem
      rw [hcomponents kind hmem] at hunknown
      cases hunknown
    rcases List.mem_append.mp hkind with hmem | hmem
    · exact .unknownKind hspec (.inl rfl) (hlisted hfield hmem) hmem hmissing
    · exact .unknownKind hspec (.inr rfl) (hlisted hfield' hmem) hmem hmissing
  · split
    · next hreference =>
        simp only [Bool.and_eq_true, beq_iff_eq, List.isEmpty_iff] at hreference
        obtain ⟨htype, rfl⟩ := hreference
        exact failsOnly_error (.acceptsNothing hspec (AttributeType.eq_name_of_ofDatum? htype) hfield)
    · exact failsOnly_ok _

end Attribute

section Kinds

variable {d spec : Datum} {kind : String}

theorem attributes_of_passes {needed : List String} {parts : List (String × List Rule)}
    (h : Passes (recordOf needed parts) spec)
    (hparts : parts.lookup "attributes" = some attributesRules) :
    ∀ p ∈ (spec.field "attributes").fields, Passes attributeRules p.2 := by
  unfold Datum.field
  cases hmember : spec.field? "attributes" with
  | none => simp [Datum.fields]
  | some member => exact passes_attributesRules ((passes_recordOf h).2.2 _ hparts hmember)

theorem failsOnly_loadAttributes (chords : Table (List Int)) {needed : List String}
    {parts : List (String × List Rule)} (h : Passes (recordOf needed parts) spec)
    (hparts : parts.lookup "attributes" = some attributesRules)
    (hkind : (kind, spec) ∈ describedKinds d) :
    FailsOnly (SemanticFault d) (loadAttributes chords kind (spec.field "attributes")) := by
  rw [loadAttributes, requireMapping_field h hparts eq_record_of_passes_attributesRules, ok_bind]
  exact failsOnly_loadEntries
    (fun p hp => failsOnly_loadAttribute chords (attributes_of_passes h hparts p hp) ⟨spec, hkind, hp⟩) _

theorem failsOnly_loadComponent (chords : Table (List Int)) (h : Passes componentRules spec)
    (hkind : (kind, spec) ∈ (d.field "components").fields) :
    FailsOnly (SemanticFault d) (loadComponent chords kind spec) := by
  have hrole : ∃ role, ComponentRole.ofDatum? (spec.field "role") = some role := by
    obtain ⟨s, hs, hfield⟩ := passes_needed_oneOf h "role" (by simp) rfl
    rw [hfield]
    simp only [List.mem_cons, List.not_mem_nil, or_false] at hs
    rcases hs with rfl | rfl | rfl <;> exact ⟨_, rfl⟩
  obtain ⟨role, hrole⟩ := hrole
  simp only [loadComponent, requireMapping_eq (passes_recordOf h).1, ok_bind, hrole]
  exact (failsOnly_loadAttributes chords h rfl (List.mem_append_left _ hkind)).bind
    fun _ _ => failsOnly_ok _

theorem failsOnly_loadTrigger (chords : Table (List Int)) (h : Passes triggerRules spec)
    (hkind : (kind, spec) ∈ (d.field "triggers").fields) :
    FailsOnly (SemanticFault d) (loadTrigger chords kind spec) := by
  rw [loadTrigger, requireMapping_eq (passes_recordOf h).1, ok_bind]
  refine (failsOnly_loadAttributes chords h rfl (List.mem_append_right _ hkind)).bind
    fun attributes hattributes => ?_
  split
  · next hforbidden =>
      simp only [Bool.and_eq_true, Bool.not_eq_eq_eq_not, Bool.not_true] at hforbidden
      refine failsOnly_error (.attributesForbidden hkind ?_ ?_)
      · rw [loadAttributes, requireMapping_field h rfl eq_record_of_passes_attributesRules, ok_bind]
          at hattributes
        exact isEmpty_loadEntries hattributes hforbidden.1
      · intro hyes
        unfold Datum.field at hyes
        cases hleave : spec.field? "canHaveAttributes" with
        | none => simp [hleave] at hyes
        | some leave => simp_all [Datum.isYes]
  · exact failsOnly_ok _

theorem passes_of_kinds {rules : List Rule} (h : Passes Format.catalog d) (key : String)
    (hkey : [("components", kindsOf componentRules), ("triggers", kindsOf triggerRules)].lookup key =
      some (kindsOf rules)) : ∀ p ∈ (d.field key).fields, Passes rules p.2 := by
  unfold Datum.field
  cases hmember : d.field? key with
  | none => simp [Datum.fields]
  | some member => exact passes_kindsOf ((passes_recordOf h).2.2 _ hkey hmember)

theorem failsOnly_checkOwners {components : Table ComponentSchema}
    (hcomponents : ∀ kind ∈ (d.field "components").fields.map Prod.fst, components.contains kind = true)
    (h : ∀ kind ∈ describedKinds d, ∀ p ∈ (kind.2.field "attributes").fields, Passes attributeRules p.2) :
    FailsOnly (SemanticFault d) (checkOwners components (describedKinds d)) :=
  failsOnly_forM fun kind hkind => failsOnly_forM fun p hp =>
    failsOnly_checkAttribute hcomponents (h kind hkind p hp) ⟨kind.2, hkind, hp⟩

theorem failsOnly_load {chordFile : DataFile} {chords : Table (List Int)} (h : Passes Format.catalog d)
    (path : String) (hchords : loadChords chordFile = .ok chords) :
    FailsOnly (SemanticFault d) (load ⟨path, .data d⟩ chordFile) := by
  have hcomponents := passes_of_kinds h "components" rfl
  have htriggers := passes_of_kinds h "triggers" rfl
  obtain ⟨members, hrecord⟩ := (passes_recordOf h).1
  have hmapping : mappingIn ⟨path, .data d⟩ = .ok d := by rw [mappingIn, hrecord]
  have hcomponentSection : requireMapping "items" (d.field "components") = .ok () :=
    requireMapping_field h rfl eq_record_of_passes_kindsOf
  have htriggerSection : requireMapping "items" (d.field "triggers") = .ok () :=
    requireMapping_field h rfl eq_record_of_passes_kindsOf
  simp only [load, hchords, hmapping, hcomponentSection, htriggerSection, ok_bind]
  refine (failsOnly_loadEntries (fun p hp => failsOnly_loadComponent chords (hcomponents p hp) hp) _).bind
    fun components hloaded => ?_
  refine (failsOnly_loadEntries (fun p hp => failsOnly_loadTrigger chords (htriggers p hp) hp) _).bind
    fun triggers _ => ?_
  refine FailsOnly.bind (failsOnly_checkOwners ?_ ?_) fun _ _ => failsOnly_ok _
  · intro kind hkind
    exact contains_loadEntries hloaded (.inl hkind)
  · intro kind hkind
    rcases List.mem_append.mp hkind with hkind | hkind
    · exact attributes_of_passes (hcomponents kind hkind) rfl
    · exact attributes_of_passes (htriggers kind hkind) rfl

end Kinds

def isBinary : Datum → Bool
  | .number (.float _) => true
  | _ => false

/-- Whether a chord lists a semitone as a binary64 value. -/
def hasBinarySemitone (chord : Datum) : Bool :=
  match chord.field "semitones" with
  | .list steps => steps.any isBinary
  | _ => false

def binaryChord? (e : Datum) : Option Datum :=
  match e.field "chords" with
  | .list entries => entries.find? hasBinarySemitone
  | _ => none

section Chords

variable {d e : Datum} {path : String}

theorem mapM_wholeNumber? {steps : List Datum} (h : ∀ m ∈ steps, ∃ n, m = .number n) :
    if steps.any isBinary = true then steps.mapM wholeNumber? = none
    else ∃ whole, steps.mapM wholeNumber? = some whole := by
  induction steps with
  | nil => exact ⟨[], rfl⟩
  | cons m steps ih =>
      rw [List.forall_mem_cons] at h
      have hrest := ih h.2
      obtain ⟨n | x, rfl⟩ := h.1
      · by_cases hbinary : steps.any isBinary = true
        · rw [if_pos hbinary] at hrest
          simp [isBinary, hbinary, wholeNumber?, hrest]
        · rw [if_neg hbinary] at hrest
          obtain ⟨whole, hwhole⟩ := hrest
          simp [isBinary, hbinary, wholeNumber?, hwhole]
      · simp [isBinary, wholeNumber?]

theorem loadChord_of_passes (h : Passes chordRules d) (path : String) (index : Nat) :
    ∃ name steps, d.field "name" = .text name ∧ loadChord path index d =
      if hasBinarySemitone d = true then .error (.chordSemitones name path) else .ok (name, steps) := by
  obtain ⟨⟨members, rfl⟩, -⟩ := passes_recordOf h
  obtain ⟨_, hname, hnamed⟩ := passes_needed h "name" (by simp) rfl
  obtain ⟨_, hlist, hsteps⟩ := passes_needed h "semitones" (by simp) rfl
  obtain ⟨name, rfl⟩ := eq_text_of_holds (holds_of_passes hnamed)
  obtain ⟨steps, rfl, hintegers⟩ := eq_list_of_passes hsteps
  have hfilled : name ≠ "" := check_textNotEmpty.mp (passes_cons.mp (passes_cons.mp hnamed).2).1
  have hread := mapM_wholeNumber? fun m hm => eq_number_of_holds (holds_of_passes (hintegers m hm))
  simp only [loadChord, semitones?, hasBinarySemitone, Datum.field, hname, hlist, Option.getD_some,
    if_neg hfilled]
  split at hread
  · next hbinary => exact ⟨name, [], rfl, by simp [hread, hbinary]⟩
  · next hbinary =>
      obtain ⟨whole, hwhole⟩ := hread
      exact ⟨name, _, rfl, by rw [hwhole, if_neg hbinary]⟩

theorem loadChordsFrom_of_passes {entries : List Datum} (h : ∀ m ∈ entries, Passes chordRules m)
    (index : Nat) (loaded : Table (List Int)) :
    match entries.find? hasBinarySemitone with
    | none => ∃ chords, loadChordsFrom path index loaded entries = .ok chords
    | some chord => ∃ name, chord.field "name" = .text name ∧
        loadChordsFrom path index loaded entries = .error (.chordSemitones name path) := by
  induction entries generalizing index loaded with
  | nil => exact ⟨loaded, rfl⟩
  | cons m entries ih =>
      rw [List.forall_mem_cons] at h
      obtain ⟨name, steps, hname, hload⟩ := loadChord_of_passes h.1 path index
      by_cases hbinary : hasBinarySemitone m = true
      · rw [if_pos hbinary] at hload
        simp only [List.find?_cons, hbinary, loadChordsFrom, hload]
        exact ⟨name, hname, rfl⟩
      · rw [if_neg hbinary] at hload
        simp only [List.find?_cons, hbinary, loadChordsFrom, hload]
        exact ih h.2 _ _

theorem loadChords_of_passes (h : Passes Format.chords e) (path : String) :
    match binaryChord? e with
    | none => ∃ chords, loadChords ⟨path, .data e⟩ = .ok chords
    | some chord => ∃ name, chord.field "name" = .text name ∧
        loadChords ⟨path, .data e⟩ = .error (.chordSemitones name path) := by
  obtain ⟨⟨members, hrecord⟩, -⟩ := passes_recordOf h
  obtain ⟨_, hlist, hpasses⟩ := passes_needed h "chords" (by simp) rfl
  obtain ⟨entries, rfl, hentries⟩ := eq_list_of_passes hpasses
  have hfield : e.field "chords" = .list entries := by rw [Datum.field, hlist, Option.getD_some]
  have hmapping : mappingIn ⟨path, .data e⟩ = .ok e := by rw [mappingIn, hrecord]
  have hload : loadChords ⟨path, .data e⟩ = loadChordsFrom path 0 .empty entries := by
    simp only [loadChords, DataFile.exists?, hmapping, hfield, Datum.orElse, Datum.isYes]
    cases entries <;> rfl
  rw [hload, binaryChord?, hfield]
  exact loadChordsFrom_of_passes hentries 0 .empty

end Chords

section Validation

variable {d e : Datum} {path chordPath : String} {strict : Bool}

theorem severity_of_formatIssues {format : List Rule} {file : String} {issue : FileIssue}
    (h : issue ∈ formatIssues format file d) : issue.severity = .error := by
  obtain ⟨finding, -, rfl⟩ := List.mem_map.mp h
  rfl

theorem passes_of_formatIssues {format : List Rule} (file : String)
    (h : formatIssues format file d = []) : Passes format d := by
  have hperm : (Rule.findings format d).Perm (checkAll format d) := List.mergeSort_perm _ _
  rw [List.map_eq_nil_iff.mp h] at hperm
  exact hperm.symm.eq_nil

theorem passes_of_issuesIn {format : List Rule} {limits : Bool}
    (h : ∀ issue ∈ issuesIn format limits ⟨path, .data d⟩, issue.severity ≠ .error) :
    Passes format d := by
  by_cases hnull : d = .null
  · subst hnull
    exact absurd rfl (h (fileIssue path "File is empty or contains only whitespace") (by simp [issuesIn]))
  · apply passes_of_formatIssues path
    cases hfound : formatIssues format path d with
    | nil => rfl
    | cons issue rest =>
        have hissues : issuesIn format limits ⟨path, .data d⟩ = issue :: rest := by
          cases d <;> simp_all [issuesIn]
        have herror : issue.severity = .error :=
          severity_of_formatIssues (d := d) (hfound ▸ List.mem_cons_self)
        exact absurd herror (h issue (hissues ▸ List.mem_cons_self))

theorem passes_of_validate
    (h : ∀ issue ∈ validate ⟨path, .data d⟩ (some ⟨chordPath, .data e⟩) strict, issue.severity ≠ .error) :
    Passes Format.catalog d ∧ Passes Format.chords e := by
  have hfound : ∀ issue ∈ catalogIssues ⟨path, .data d⟩ ++ chordIssues ⟨chordPath, .data e⟩,
      issue.severity ≠ .error := by
    intro issue hissue
    cases strict with
    | false => exact h issue hissue
    | true => exact absurd rfl (h issue.asError (List.mem_map_of_mem hissue))
  exact ⟨passes_of_issuesIn fun issue hissue => hfound issue (List.mem_append_left _ hissue),
    passes_of_issuesIn fun issue hissue => hfound issue (List.mem_append_right _ hissue)⟩

/-- Files in which validation finds no error fail to load by what the catalog means, or by the first
chord that lists a semitone as a binary64 value. -/
theorem validated_files_load
    (h : ∀ issue ∈ validate ⟨path, .data d⟩ (some ⟨chordPath, .data e⟩) strict,
      issue.severity ≠ .error) :
    (binaryChord? e = none →
      (∃ c, load ⟨path, .data d⟩ ⟨chordPath, .data e⟩ = .ok c) ∨
        ∃ fault, load ⟨path, .data d⟩ ⟨chordPath, .data e⟩ = .error fault ∧ SemanticFault d fault) ∧
    ∀ chord, binaryChord? e = some chord → ∃ name, chord.field "name" = .text name ∧
      load ⟨path, .data d⟩ ⟨chordPath, .data e⟩ = .error (.chordSemitones name chordPath) := by
  obtain ⟨hcatalog, hchords⟩ := passes_of_validate h
  have hread := loadChords_of_passes hchords chordPath
  constructor
  · intro hnone
    rw [hnone] at hread
    obtain ⟨chords, hchords⟩ := hread
    have honly := failsOnly_load hcatalog path hchords
    cases hload : load ⟨path, .data d⟩ ⟨chordPath, .data e⟩ with
    | ok c => exact .inl ⟨c, rfl⟩
    | error fault => exact .inr ⟨fault, rfl, honly hload⟩
  · intro chord hsome
    rw [hsome] at hread
    obtain ⟨name, hname, hfault⟩ := hread
    exact ⟨name, hname, by rw [load, hfault]; rfl⟩

def oscFile : Datum := .record [
  ("components", .record [("osc", .record [("role", .text "source"), ("attributes", .record [])])]),
  ("triggers", .record [("note", .record [])])]

def minorFile (root : Number) : Datum := .record [("chords", .list [
  .record [("name", .text "m"), ("semitones", .list [.number root, .int 3, .int 7])]])]

theorem validated_files_load_oscFile :
    (∀ issue ∈ validate ⟨"catalog.yaml", .data oscFile⟩
        (some ⟨"chords.yaml", .data (minorFile (.int 0))⟩) false, issue.severity ≠ .error) ∧
      ((∃ c, load ⟨"catalog.yaml", .data oscFile⟩ ⟨"chords.yaml", .data (minorFile (.int 0))⟩ = .ok c) ∨
        ∃ fault, load ⟨"catalog.yaml", .data oscFile⟩ ⟨"chords.yaml", .data (minorFile (.int 0))⟩ =
          .error fault ∧ SemanticFault oscFile fault) := by
  have hvalid : ∀ issue ∈ validate ⟨"catalog.yaml", .data oscFile⟩
      (some ⟨"chords.yaml", .data (minorFile (.int 0))⟩) false, issue.severity ≠ .error := by
    decide +kernel
  exact ⟨hvalid, (validated_files_load hvalid).1 rfl⟩

/-- A root that is written with a point is valid, and is not loaded. -/
theorem validated_files_may_not_load :
    ¬∀ d e, (∀ issue ∈ validate ⟨"catalog.yaml", .data d⟩ (some ⟨"chords.yaml", .data e⟩) false,
        issue.severity ≠ .error) →
      (∃ c, load ⟨"catalog.yaml", .data d⟩ ⟨"chords.yaml", .data e⟩ = .ok c) ∨
        ∃ fault, load ⟨"catalog.yaml", .data d⟩ ⟨"chords.yaml", .data e⟩ = .error fault ∧
          SemanticFault d fault := by
  intro hloads
  have hvalid : ∀ issue ∈ validate ⟨"catalog.yaml", .data oscFile⟩
      (some ⟨"chords.yaml", .data (minorFile (.float (Binary64.zero false)))⟩) false,
      issue.severity ≠ .error := by
    decide +kernel
  have hfault : load ⟨"catalog.yaml", .data oscFile⟩
      ⟨"chords.yaml", .data (minorFile (.float (Binary64.zero false)))⟩ =
      .error (.chordSemitones "m" "chords.yaml") := rfl
  rcases hloads _ _ hvalid with ⟨c, hc⟩ | ⟨fault, hfault', hmeaning⟩
  · cases hfault.symm.trans hc
  · cases hfault.symm.trans hfault'
    cases hmeaning

end Validation

end Catalog

end Instrument
