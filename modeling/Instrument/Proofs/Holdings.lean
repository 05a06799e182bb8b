import Instrument.Catalog.Shipped
import Instrument.Proofs.Outcomes

namespace Instrument.Document

variable {c : Catalog} {strict : Bool} {owner : Owner} {attr word : String} {schema : AttributeSchema}
  {s : Store} {given : List Char} {info : Option NameInfo}

namespace Reader

theorem value_boundModulation (c : Catalog) (target : Owner × String) (s : Store) (a : Attribute) :
    (boundModulation c target s a).value = a.value := by
  rw [boundModulation]
  split
  · split <;> rfl
  · rfl

theorem assignments_eq_map_gifts (c : Catalog) (strict : Bool) (lines : List (List Char)) :
    ∀ r, (gifts c strict r lines).map (Prod.map id Prod.fst) = assignments c strict r lines := by
  induction lines with
  | nil =>
      intro r
      rfl
  | cons line rest ih =>
      intro r
      rw [gifts, assignments, List.map_append, ih, gift?]
      cases r.assignment? c line <;> rfl

/-- What an attribute holds in the end, with what is said about it. -/
structure Holds (c : Catalog) (strict : Bool) (lines : List (List Char)) (target : Owner × String)
    (given : List Char) (info : Option NameInfo) (modulation : Option ComponentRef) (a : Attribute) :
    Prop where
  last : (assignments c strict start lines).lookup target = some given
  registered : ∀ i, info = some i →
    (readLines c strict start lines).store.nameInfo? (String.ofList given) = some i
  value : a.value =
    (concluded c strict (readLines c strict start lines).store modulation target (given, info)).attr.value
  said : ∀ complaint ∈
      (concluded c strict (readLines c strict start lines).store modulation target (given, info)).complaints,
    ∃ issue ∈ ((readLines c strict start lines).conclude c strict).issues, issue.complaint = complaint

/-- Every attribute holds what the last text given to it comes to, and the report says what there is to say
about that. -/
theorem exists_holds (hkeys : DistinctKeys c) {lines : List (List Char)} {cell : Cell}
    (h : ((readLines c strict start lines).conclude c strict).store.HasCell owner attr cell) :
    ∃ a given info modulation, cell = .ok a ∧ Holds c strict lines (owner, attr) given info modulation a := by
  have hsupplied := supplied_readLines hkeys strict lines
  have htended := tended_readLines hkeys strict lines
  have hlegible := (founded_readLines c strict lines).legible
  obtain ⟨b, hb, rfl⟩ := (hasCell_conclude_iff hlegible).1 h
  obtain ⟨given, info, hlookup, rfl⟩ := hsupplied.attribute_eq htended hb
  refine ⟨_, given, info, ((attachments c strict start lines).lookup (owner, attr)).map .named, rfl, ?_,
    hsupplied.info (mem_of_lookup hlookup), ?_, ?_⟩
  · rw [← assignments_eq_map_gifts, lookup_map, hlookup]
    rfl
  · rw [boundAttribute, value_boundModulation]
    rfl
  · intro complaint hcomplaint
    rw [issues_conclude hlegible]
    simp only [concluded, List.mem_append, Option.mem_toList] at hcomplaint
    rcases hcomplaint with hline | hbinding
    · have hsaid : complaint ∈ saidOfGift c strict (owner, attr) (given, info) :=
        List.mem_append_right _ hline
      have hperm := complaints_readLines c strict lines start
      have hmem := (hperm.mem_iff (a := complaint)).2 (List.mem_append_right _ (List.mem_append_right _
        (List.mem_flatMap.2 ⟨_, mem_of_lookup hlookup, hsaid⟩)))
      obtain ⟨issue, hissue, rfl⟩ := List.mem_map.1 hmem
      exact ⟨issue, List.mem_append_left _ hissue, rfl⟩
    · have htarget := (mem_targets_of_legible hlegible).2 ⟨_, hb⟩
      obtain ⟨issue, hissue, rfl⟩ : ∃ issue ∈ (readLines c strict start lines).told c strict (owner, attr),
          issue.complaint = complaint := by
        rw [told, hb.read_eq hlegible.coherent, hbinding]
        exact ⟨_, List.mem_append_left _ (Option.mem_toList.2 rfl), rfl⟩
      exact ⟨issue, List.mem_append_right _ (List.mem_flatMap.2 ⟨_, htarget, hissue⟩), rfl⟩

end Reader

def shippedCatalog : Catalog := Catalog.Shipped.catalog.toOption.getD .empty

theorem eq_ok_of_isOk {ε α : Type} {result : Except ε α} (h : result.isOk = true) (other : α) :
    result = .ok (result.toOption.getD other) := by
  cases result with
  | ok a => rfl
  | error e => cases h

theorem catalog_eq_shippedCatalog : Catalog.Shipped.catalog = .ok shippedCatalog :=
  eq_ok_of_isOk (by decide +kernel) .empty

theorem distinctKeys_shippedCatalog : DistinctKeys shippedCatalog := by
  have hkeys : (shippedCatalog.triggers.keys.all fun kind => !kind.toList.contains '_') = true := by
    decide +kernel
  apply distinctKeys_of_no_underscore
  intro kind hkind
  have hmem : kind ∈ shippedCatalog.triggers.keys := (Table.mem_keys_iff ..).2 hkind
  simpa using List.all_eq_true.1 hkeys kind hmem

def schemas (c : Catalog) : List AttributeSchema :=
  (c.components.values.flatMap fun kind => kind.attributes.values) ++
    c.triggers.values.flatMap fun kind => kind.attributes.values

theorem mem_schemas (h : schemaOf c owner attr = some schema) : schema ∈ schemas c := by
  cases owner with
  | component name kind =>
      obtain ⟨x, hx, hschema⟩ := Option.bind_eq_some_iff.1 h
      exact List.mem_append_left _ (List.mem_flatMap.2
        ⟨x, (Table.mem_values_iff ..).2 ⟨kind, hx⟩, (Table.mem_values_iff ..).2 ⟨attr, hschema⟩⟩)
  | trigger key kind =>
      obtain ⟨x, hx, hschema⟩ := Option.bind_eq_some_iff.1 h
      exact List.mem_append_right _ (List.mem_flatMap.2
        ⟨x, (Table.mem_values_iff ..).2 ⟨kind, hx⟩, (Table.mem_values_iff ..).2 ⟨attr, hschema⟩⟩)

def testAttribute (s : Store) (owner : Owner) (attr : String) (test : Cell → Bool) : Bool :=
  match owner with
  | .component name kind => (s.componentAt? none kind name).any fun x => (x.cell? attr).any test
  | .trigger key kind => (s.trigger? key).any fun x => x.kind == kind && (x.attributes.get? attr).any test

theorem exists_hasCell_of_test (s : Store) (owner : Owner) (attr : String) (test : Cell → Bool)
    (h : testAttribute s owner attr test = true) :
    ∃ cell, s.HasCell owner attr cell ∧ test cell = true := by
  cases owner with
  | component name kind =>
      obtain ⟨x, hx, h⟩ := (Option.any_eq_true ..).mp h
      obtain ⟨cell, hcell, htest⟩ := (Option.any_eq_true ..).mp h
      exact ⟨cell, ⟨none, x, hx, hcell⟩, htest⟩
  | trigger key kind =>
      obtain ⟨x, hx, h⟩ := (Option.any_eq_true ..).mp h
      rw [Bool.and_eq_true, beq_iff_eq] at h
      obtain ⟨cell, hcell, htest⟩ := (Option.any_eq_true ..).mp h.2
      exact ⟨cell, ⟨x, hx, h.1, hcell⟩, htest⟩

theorem Reader.concluded_name {target : Owner × String} (strict : Bool) (modulation : Option ComponentRef)
    (hschema : schemaOf c target.1 target.2 = some schema) (hname : Text.isName given = true)
    (href : schema.isReference = true)
    (hinfo : ∀ i, info = some i → s.nameInfo? (String.ofList given) = some i) :
    concluded c strict s modulation target (given, info) =
      let bound := bindWord strict target.1 target.2 schema .empty (String.ofList given)
        (s.nameInfo? (String.ofList given))
      ⟨bound.attr.withModulation modulation, bound.complaint.toList⟩ := by
  cases hregistered : s.nameInfo? (String.ofList given) with
  | some i =>
      refine concluded_of_reference strict modulation hschema hname href hregistered ?_
      cases info with
      | none => exact .inr rfl
      | some j => exact .inl ((hinfo j rfl).symm.trans hregistered)
  | none =>
      have hnone : info = none := by
        cases info with
        | none => rfl
        | some i => exact absurd (hregistered.symm.trans (hinfo i rfl)) (by simp)
      obtain ⟨owner, attr⟩ := target
      simp only [concluded, hschema, hnone, assign_name_of_none hname href, Assigned.clean, bindValue,
        Attribute.withModulation, Attribute.withValue, hregistered, List.nil_append]
      rfl

theorem bindWord_quiet (href : schema.isReference = true) {current : Attribute}
    (h : (bindWord strict owner attr schema current word info).complaint = none) :
    ∃ i, info = some i ∧
      (i.isVariable = true ∧ schema.canReferenceVariables = true ∧
          (bindWord strict owner attr schema current word info).attr.value =
            some (.variableRef (.text word)) ∨
        i.isVariable = false ∧ i.kind ∈ schema.acceptsComponents ∧
          (bindWord strict owner attr schema current word info).attr.value =
            some (.componentRef (.bound word i.kind))) := by
  cases info with
  | none => cases h
  | some i =>
      refine ⟨i, rfl, ?_⟩
      have hresolves : schema.resolvesComponents = true := by
        rw [AttributeSchema.resolvesComponents, href, Bool.true_or]
      cases hvariable : i.isVariable with
      | true =>
          cases hreferences : schema.canReferenceVariables with
          | true =>
              refine .inl ⟨rfl, rfl, ?_⟩
              simp only [bindWord, hvariable, hreferences, if_true]
              rfl
          | false => simp [bindWord, hvariable, hreferences, Bound.raw] at h
      | false =>
          cases haccepts : schema.accepts i.kind with
          | true =>
              refine .inr ⟨rfl, ?_, ?_⟩
              · simpa [AttributeSchema.accepts, AttributeSchema.allowList, href] using haccepts
              · simp [bindWord, hvariable, hresolves, haccepts, bindComponent, href, Bound.clean,
                  Attribute.withValue]
          | false => simp [bindWord, hvariable, hresolves, haccepts, Bound.raw] at h

theorem Reader.value_concluded {target : Owner × String} {v : Value} {complaints : List Complaint}
    (modulation : Option ComponentRef) (hschema : schemaOf c target.1 target.2 = some schema)
    (h : assign strict target.1 target.2 (some schema) .empty given info =
      ⟨Attribute.empty.withValue (some v), complaints⟩) (hv : ∀ d, v ≠ .unresolved d) :
    (concluded c strict s modulation target (given, info)).attr.value = some v := by
  have hbound : ∀ d, (assign strict target.1 target.2 (schemaOf c target.1 target.2) .empty given info).attr.value ≠
      some (.unresolved d) := by
    intro d hd
    rw [hschema, h] at hd
    exact hv d (Option.some.inj hd)
  rw [concluded, bindValue_of_bound (a := Attribute.withModulation _ modulation) hbound, hschema, h]
  rfl

theorem plainValue_ne_unresolved (text : List Char) (d : Datum) : plainValue text ≠ .unresolved d := by
  rw [plainValue]
  split <;> simp

theorem concluded_plain {target : Owner × String} (strict : Bool) (modulation : Option ComponentRef)
    (hschema : schemaOf c target.1 target.2 = some schema) (hname : Text.isName given = false)
    (href : schema.isReference = true) :
    (Reader.concluded c strict s modulation target (given, info)).attr.value = some (plainValue given) := by
  have htype : schema.type = .componentRef := eq_of_beq href
  have htyped : assign strict target.1 target.2 (some schema) .empty given info =
      .clean (Attribute.empty.withValue (some (plainValue given))) := by
    simp [assign, hname, assignTyped, AttributeSchema.isNumeric, htype, AttributeType.isNumeric]
  exact Reader.value_concluded modulation hschema htyped (plainValue_ne_unresolved given)

/-- What an attribute that takes components holds of a text: of a name the component of that name, of
arithmetic and of a number what they are for every attribute. -/
structure HoldsComponent (s : Store) (schema : AttributeSchema) (given : List Char)
    (value : Option Value) : Prop where
  name : Text.isName given = true → ∃ info, s.nameInfo? (String.ofList given) = some info ∧
    info.kind ∈ schema.acceptsComponents ∧
      value = some (.componentRef (.bound (String.ofList given) info.kind))
  arithmetic : Text.isName given = false → Expr.isArithmetic given = true →
    value = some (.expression (.text (String.ofList given)))
  number : Text.isName given = false → Expr.isArithmetic given = false →
    ∀ n, Datum.ofText given = .number n → value = some (.literal (.number n))

theorem holdsComponent_of_quiet (hkeys : DistinctKeys c) {text : String}
    (hquiet : (read c strict text).issues = []) {cell : Cell}
    (hcell : (read c strict text).store.HasCell owner attr cell)
    (hschema : schemaOf c owner attr = some schema) (href : schema.isReference = true)
    (hvariables : schema.canReferenceVariables = false) :
    ∃ a given, cell = .ok a ∧
      (Reader.assignments c strict .start (Text.lines text.toList)).lookup (owner, attr) = some given ∧
      HoldsComponent (read c strict text).store schema given a.value := by
  obtain ⟨a, given, info, modulation, rfl, h⟩ := Reader.exists_holds hkeys hcell
  refine ⟨a, given, rfl, h.last, ?_, ?_, ?_⟩
  · intro hname
    have hvalue := h.value
    have hsaid := h.said
    rw [Reader.concluded_name strict modulation hschema hname href h.registered] at hvalue hsaid
    have hnone : (bindWord strict owner attr schema .empty (String.ofList given)
        ((readLines c strict .start (Text.lines text.toList)).store.nameInfo?
          (String.ofList given))).complaint = none := by
      rw [Option.eq_none_iff_forall_ne_some]
      intro complaint hcomplaint
      obtain ⟨issue, hissue, -⟩ := hsaid complaint (Option.mem_toList.2 hcomplaint)
      rw [read] at hquiet
      rw [hquiet] at hissue
      cases hissue
    obtain ⟨i, hinfo, hbound⟩ := bindWord_quiet href hnone
    rcases hbound with ⟨-, hreferences, -⟩ | ⟨-, haccepts, hcomponent⟩
    · rw [hvariables] at hreferences
      cases hreferences
    · exact ⟨i, (Reader.nameInfo?_conclude ..).trans hinfo, haccepts, hvalue.trans hcomponent⟩
  · intro hname harithmetic
    rw [h.value, concluded_plain strict modulation hschema hname href, plainValue, if_pos harithmetic]
  · intro hname harithmetic n hn
    rw [h.value, concluded_plain strict modulation hschema hname href, plainValue, harithmetic, hn]
    rfl

theorem shipped_components_closed (h : schema ∈ schemas shippedCatalog) (href : schema.isReference = true) :
    schema.canReferenceVariables = false := by
  have hall : ((schemas shippedCatalog).all fun schema =>
      !schema.isReference || !schema.canReferenceVariables) = true := by
    decide +kernel
  simpa [href] using List.all_eq_true.1 hall schema h

/-- In a document by the catalog of the library of which there is nothing to say, an attribute that takes
components holds a component of a kind that it accepts, if the last text given to it is a name. -/
theorem component_attribute_holds {text : String} (hquiet : (read shippedCatalog strict text).issues = [])
    {cell : Cell} (hcell : (read shippedCatalog strict text).store.HasCell owner attr cell)
    (hschema : schemaOf shippedCatalog owner attr = some schema) (href : schema.isReference = true) :
    ∃ a given, cell = .ok a ∧
      (Reader.assignments shippedCatalog strict .start (Text.lines text.toList)).lookup (owner, attr) =
        some given ∧
      HoldsComponent (read shippedCatalog strict text).store schema given a.value :=
  holdsComponent_of_quiet distinctKeys_shippedCatalog hquiet hcell hschema href
    (shipped_components_closed (mem_schemas hschema) href)

def isNumber : Cell → Bool
  | .ok ⟨some (.literal (.number _)), _⟩ => true
  | _ => false

theorem schemaOf_master_filter : ∃ schema,
    schemaOf shippedCatalog (.trigger "master" "master") "filter" = some schema ∧
      schema.isReference = true :=
  (Option.any_eq_true ..).mp (by decide +kernel)

def masterText : String := "filter warm\nmaster\n  filter warm"

theorem component_attribute_holds_masterText :
    (read shippedCatalog false masterText).issues = [] ∧ ∃ cell schema,
      (read shippedCatalog false masterText).store.HasCell (.trigger "master" "master") "filter" cell ∧
      schemaOf shippedCatalog (.trigger "master" "master") "filter" = some schema ∧
      schema.isReference = true ∧ ∃ a given, cell = .ok a ∧
        HoldsComponent (read shippedCatalog false masterText).store schema given a.value := by
  have hquiet : (read shippedCatalog false masterText).issues = [] :=
    List.isEmpty_iff.1 (by decide +kernel)
  obtain ⟨cell, hcell, -⟩ := exists_hasCell_of_test (read shippedCatalog false masterText).store
    (.trigger "master" "master") "filter" (fun _ => true) (by decide +kernel)
  obtain ⟨schema, hschema, href⟩ := schemaOf_master_filter
  obtain ⟨a, given, hok, -, hholds⟩ := component_attribute_holds hquiet hcell hschema href
  exact ⟨hquiet, cell, schema, hcell, hschema, href, a, given, hok, hholds⟩

/-- A number is kept by an attribute that takes components, and nothing is said about it. -/
theorem component_attribute_may_hold_number :
    ¬∀ owner attr cell schema, (read shippedCatalog false "master\n  filter 5").issues = [] →
      (read shippedCatalog false "master\n  filter 5").store.HasCell owner attr cell →
      schemaOf shippedCatalog owner attr = some schema → schema.isReference = true →
        ∃ a name kind, cell = .ok a ∧ a.value = some (.componentRef (.bound name kind)) ∧
          kind ∈ schema.acceptsComponents := by
  intro hbound
  have hquiet : (read shippedCatalog false "master\n  filter 5").issues = [] :=
    List.isEmpty_iff.1 (by decide +kernel)
  obtain ⟨cell, hcell, hnumber⟩ := exists_hasCell_of_test
    (read shippedCatalog false "master\n  filter 5").store
    (.trigger "master" "master") "filter" isNumber (by decide +kernel)
  obtain ⟨schema, hschema, href⟩ := schemaOf_master_filter
  obtain ⟨⟨_, modulation⟩, name, kind, rfl, rfl, -⟩ := hbound _ _ _ _ hquiet hcell hschema href
  cases hnumber

/-- What an attribute of numbers may hold. -/
inductive Numeric : Option Value → Prop
  | nothing : Numeric none
  | number {n : Number} (finite : n.isFinite = true) : Numeric (some (.literal (.number n)))
  | expression (source : Datum) : Numeric (some (.expression source))
  | reference (name : Datum) : Numeric (some (.variableRef name))

/-- The texts that an attribute of numbers may hold all the same: the front of the given one, where that is
written like a number but is beyond all binary64 values; a word for a variable, where the attribute takes
modulators but no variables; and a default of that size, where a modulator stood in place of a value. -/
inductive Stray (schema : AttributeSchema) (given : List Char) (info : Option NameInfo) : String → Prop
  | beyond {number rest : List Char} (front : numberFront? given = some (number, rest))
      (text : Datum.ofText number = .text (String.ofList number)) :
      Stray schema given info (String.ofList number)
  | word {i : NameInfo} (name : Text.isName given = true) (registered : info = some i)
      (declared : i.isVariable = true) (modulated : schema.receivesModulation = true)
      (closed : schema.canReferenceVariables = false) : Stray schema given info (String.ofList given)
  | standIn {n : Number} (name : Text.isName given = true) (default : schema.default = .number n)
      (text : Datum.ofText (Datum.number n).shown.toList = .text (Datum.number n).shown) :
      Stray schema given info (Datum.number n).shown

def HoldsNumber (schema : AttributeSchema) (given : List Char) (info : Option NameInfo)
    (value : Option Value) : Prop :=
  Numeric value ∨ ∃ text, value = some (.literal (.text text)) ∧ Stray schema given info text

def HasNumberDefault (schema : AttributeSchema) : Prop :=
  schema.default = .null ∨ ∃ n, schema.default = .number n ∧ n.isFinite = true

theorem ofText_cases (cs : List Char) :
    (∃ n, Datum.ofText cs = .number n ∧ n.isFinite = true) ∨
      Datum.ofText cs = .text (String.ofList cs) := by
  unfold Datum.ofText
  split
  · exact .inr rfl
  · split
    · exact .inr rfl
    · next x _ hfinite =>
        left
        split
        · next i _ _ => exact ⟨.int i, rfl, rfl⟩
        · exact ⟨.float x, rfl, by simpa using hfinite⟩

theorem numeric_defaultValue (h : HasNumberDefault schema) : Numeric (defaultValue schema) := by
  rcases h with hnull | ⟨n, hn, hfinite⟩
  · rw [defaultValue, hnull]
    exact .nothing
  · rw [defaultValue, hn]
    exact .number hfinite

theorem holdsNumber_standIn (h : HasNumberDefault schema) (hname : Text.isName given = true) :
    HoldsNumber schema given info (standIn schema) := by
  rcases h with hnull | ⟨n, hn, -⟩
  · rw [standIn, hnull]
    exact .inl .nothing
  · have hvalue : standIn schema = some (.literal (Datum.ofText (Datum.number n).shown.toList)) := by
      rw [standIn, hn]
    rw [hvalue]
    rcases ofText_cases (Datum.number n).shown.toList with ⟨m, hm, hfinite⟩ | htext
    · rw [hm]
      exact .inl (.number hfinite)
    · rw [String.ofList_toList] at htext
      rw [htext]
      exact .inr ⟨_, rfl, .standIn hname hn htext⟩

theorem not_choice_of_isNumeric (hnumeric : schema.isNumeric = true) :
    (schema.type == .choice) = false := by
  cases hchoice : schema.type with
  | choice => simp [AttributeSchema.isNumeric, hchoice, AttributeType.isNumeric] at hnumeric
  | _ => rfl

theorem not_isReference_of_isNumeric (hnumeric : schema.isNumeric = true) : schema.isReference = false := by
  cases hreference : schema.isReference with
  | false => rfl
  | true =>
      rw [AttributeSchema.isNumeric, eq_of_beq hreference] at hnumeric
      cases hnumeric

theorem holdsNumber_assignTyped (hnumeric : schema.isNumeric = true) (hdefault : HasNumberDefault schema) :
    HoldsNumber schema given info (assignTyped attr schema .empty given).attr.value := by
  have htype := not_choice_of_isNumeric hnumeric
  cases harithmetic : Expr.isArithmetic given with
  | true =>
      simp only [assignTyped, htype, harithmetic, plainValue, Bool.not_true, Bool.and_false,
        Bool.false_eq_true, if_false, if_true]
      exact .inl (.expression _)
  | false =>
      simp only [assignTyped, htype, hnumeric, harithmetic, Bool.not_false, Bool.and_self,
        Bool.false_eq_true, if_false, if_true, measure]
      rcases ofText_cases given with ⟨n, hn, hfinite⟩ | htext
      · rw [hn]
        exact .inl (.number hfinite)
      · rw [htext]
        cases hfront : numberFront? given with
        | none => exact .inl (numeric_defaultValue hdefault)
        | some front =>
            obtain ⟨number, rest⟩ := front
            rcases ofText_cases number with ⟨n, hn, hfinite⟩ | hbeyond
            · refine .inl ?_
              simp only [Attribute.withValue, hn]
              exact .number hfinite
            · refine .inr ⟨String.ofList number, ?_, .beyond hfront hbeyond⟩
              simp only [Attribute.withValue, hbeyond]

theorem holdsNumber_bindComponent (href : schema.isReference = false) (hdefault : HasNumberDefault schema)
    (hname : Text.isName given = true) {current : Attribute} {kind : String}
    (hfair : ∀ complaint, (bindComponent strict attr schema current word kind).complaint = some complaint →
      complaint.severity ≠ .error) :
    HoldsNumber schema given info (bindComponent strict attr schema current word kind).attr.value := by
  simp only [bindComponent, href, Bool.false_eq_true, if_false] at hfair ⊢
  cases strict with
  | true => exact absurd rfl (hfair _ rfl)
  | false =>
      simp only [Bool.false_eq_true, if_false] at hfair ⊢
      have hattr := moveModulator?_eq current attr schema (.bound word kind)
      cases hmoved : moveModulator? current attr schema (.bound word kind) with
      | none =>
          rw [hmoved] at hfair
          exact absurd rfl (hfair _ rfl)
      | some moved =>
          rw [hmoved, Option.map_some] at hattr
          split at hattr
          · rw [Option.some.inj hattr]
            exact holdsNumber_standIn hdefault hname
          · cases hattr

theorem holdsNumber_bindWord (hnumeric : schema.isNumeric = true) (hdefault : HasNumberDefault schema)
    (hname : Text.isName given = true)
    (hopen : (schema.resolvesComponents || schema.canReferenceVariables) = true) {current : Attribute}
    (hfair : ∀ complaint,
      (bindWord strict owner attr schema current (String.ofList given) info).complaint = some complaint →
        complaint.severity ≠ .error) :
    HoldsNumber schema given info
      (bindWord strict owner attr schema current (String.ofList given) info).attr.value := by
  have href := not_isReference_of_isNumeric hnumeric
  have hreceives (hclosed : schema.canReferenceVariables = false) : schema.receivesModulation = true := by
    simpa [AttributeSchema.resolvesComponents, href, hclosed] using hopen
  cases info with
  | none => exact absurd rfl (hfair _ rfl)
  | some i =>
      cases hvariable : i.isVariable with
      | true =>
          cases hreferences : schema.canReferenceVariables with
          | true =>
              refine .inl ?_
              simp only [bindWord, hvariable, hreferences, if_true]
              exact .reference _
          | false =>
              refine .inr ⟨_, ?_, .word hname rfl hvariable (hreceives hreferences) hreferences⟩
              simp only [bindWord, hvariable, hreferences, if_true, Bool.false_eq_true, if_false]
              rfl
      | false =>
          simp only [bindWord, hvariable, Bool.false_eq_true, if_false] at hfair ⊢
          cases hresolves : schema.resolvesComponents with
          | false =>
              rw [hresolves] at hfair
              exact absurd rfl (hfair _ rfl)
          | true =>
              cases haccepts : schema.accepts i.kind with
              | false =>
                  rw [hresolves, haccepts, refusal, href] at hfair
                  exact absurd rfl (hfair _ rfl)
              | true =>
                  rw [hresolves, haccepts] at hfair
                  exact holdsNumber_bindComponent href hdefault hname hfair

theorem holdsNumber_assign (hnumeric : schema.isNumeric = true) (hdefault : HasNumberDefault schema)
    (hinfo : ∀ i, info = some i → s.nameInfo? (String.ofList given) = some i)
    (hfair : ∀ complaint ∈ (assign strict owner attr (some schema) .empty given info).complaints,
      complaint.severity ≠ .error) :
    HoldsNumber schema given (s.nameInfo? (String.ofList given))
        (assign strict owner attr (some schema) .empty given info).attr.value ∨
      Text.isName given = true ∧ (schema.resolvesComponents || schema.canReferenceVariables) = true ∧
        assign strict owner attr (some schema) .empty given info =
          .clean ⟨some (.unresolved (.text (String.ofList given))), none⟩ := by
  have htyped : HoldsNumber schema given (s.nameInfo? (String.ofList given))
      (assignTyped attr schema .empty given).attr.value := holdsNumber_assignTyped hnumeric hdefault
  revert hfair
  simp only [assign]
  split
  · next hname =>
      simp only [assignName]
      split
      · next hopen =>
          split
          · next hany =>
              intro hfair
              left
              obtain ⟨i, rfl, -⟩ := (Option.any_eq_true ..).mp hany
              rw [hinfo i rfl]
              refine holdsNumber_bindWord hnumeric hdefault hname hopen ?_
              intro complaint hcomplaint
              exact hfair complaint (Option.mem_toList.2 hcomplaint)
          · rw [not_choice_of_isNumeric hnumeric, if_neg Bool.false_ne_true]
            exact fun _ => .inr ⟨hname, hopen, rfl⟩
      · intro _
        left
        split
        · exact .inl (numeric_defaultValue hdefault)
        · exact htyped
  · exact fun _ => .inl htyped

theorem HoldsNumber.ne_unresolved {value : Option Value} (h : HoldsNumber schema given info value)
    (d : Datum) : value ≠ some (.unresolved d) := by
  rintro rfl
  rcases h with hnumeric | ⟨text, htext, -⟩
  · cases hnumeric
  · cases htext

/-- What a text comes to of which no error is said. -/
theorem holdsNumber_concluded {target : Owner × String} (hschema : schemaOf c target.1 target.2 = some schema)
    (hnumeric : schema.isNumeric = true) (hdefault : HasNumberDefault schema)
    (hinfo : ∀ i, info = some i → s.nameInfo? (String.ofList given) = some i)
    (modulation : Option ComponentRef)
    (hfair : ∀ complaint ∈ (Reader.concluded c strict s modulation target (given, info)).complaints,
      complaint.severity ≠ .error) :
    HoldsNumber schema given (s.nameInfo? (String.ofList given))
      (Reader.concluded c strict s modulation target (given, info)).attr.value := by
  simp only [Reader.concluded, hschema, List.mem_append, Option.mem_toList] at hfair ⊢
  rcases holdsNumber_assign hnumeric hdefault hinfo (fun complaint hmem => hfair complaint (.inl hmem)) with
    hholds | ⟨hname, hopen, hwaits⟩
  · rw [Reader.bindValue_of_bound (a := Attribute.withModulation _ modulation) hholds.ne_unresolved]
    exact hholds
  · rw [hwaits] at hfair ⊢
    simp only [Assigned.clean, Attribute.withModulation, Reader.bindValue, hschema] at hfair ⊢
    exact holdsNumber_bindWord hnumeric hdefault hname hopen fun complaint hmem => hfair complaint (.inr hmem)

theorem Reader.Holds.holdsNumber {text : String} {modulation : Option ComponentRef} {a : Attribute}
    (h : Reader.Holds c strict (Text.lines text.toList) (owner, attr) given info modulation a)
    (hsucceeds : (read c strict text).succeeds = true) (hschema : schemaOf c owner attr = some schema)
    (hnumeric : schema.isNumeric = true) (hdefault : HasNumberDefault schema) :
    HoldsNumber schema given ((read c strict text).store.nameInfo? (String.ofList given)) a.value := by
  rw [read, Reader.nameInfo?_conclude, h.value]
  refine holdsNumber_concluded hschema hnumeric hdefault h.registered modulation ?_
  intro complaint hcomplaint herror
  obtain ⟨issue, hissue, rfl⟩ := h.said complaint hcomplaint
  have hfails : (read c strict text).issues.any (·.isError) = true :=
    List.any_eq_true.2 ⟨issue, hissue, by rw [Issue.isError, Issue.severity, herror]; rfl⟩
  rw [Reader.succeeds, hfails] at hsucceeds
  cases hsucceeds

/-- A default that is a finite number and is read as one, and modulators only beside variables. -/
def isSound (schema : AttributeSchema) : Bool :=
  (match schema.default with
    | .null => true
    | .number n => n.isFinite && (Datum.ofText (Datum.number n).shown.toList).text?.isNone
    | _ => false) &&
    (!schema.receivesModulation || schema.canReferenceVariables)

theorem hasNumberDefault_of_isSound (h : isSound schema = true) : HasNumberDefault schema := by
  rw [isSound, Bool.and_eq_true] at h
  cases hdefault : schema.default with
  | null => exact .inl hdefault
  | number n =>
      rw [hdefault] at h
      simp only [Bool.and_eq_true] at h
      exact .inr ⟨n, hdefault, h.1.1⟩
  | _ => simp [hdefault] at h

theorem Stray.beyond_of_isSound {text : String} (h : Stray schema given info text)
    (hsound : isSound schema = true) :
    ∃ number rest, numberFront? given = some (number, rest) ∧
      Datum.ofText number = .text (String.ofList number) ∧ text = String.ofList number := by
  rw [isSound, Bool.and_eq_true] at hsound
  cases h with
  | beyond hfront htext => exact ⟨_, _, hfront, htext, rfl⟩
  | word _ _ _ hmodulated hclosed => simp [hmodulated, hclosed] at hsound
  | standIn _ hdefault htext => simp [hdefault, htext, Datum.text?] at hsound

theorem shipped_numbers_sound (h : schema ∈ schemas shippedCatalog) (hnumeric : schema.isNumeric = true) :
    isSound schema = true := by
  have hall : ((schemas shippedCatalog).all fun schema => !schema.isNumeric || isSound schema) = true := by
    decide +kernel
  simpa [hnumeric] using List.all_eq_true.1 hall schema h

/-- In a document without errors an attribute of numbers holds a number or what stands for one, unless it is
left with one of the texts that go astray. -/
theorem number_attribute_holds (hkeys : DistinctKeys c) {text : String}
    (hsucceeds : (read c strict text).succeeds = true) {cell : Cell}
    (hcell : (read c strict text).store.HasCell owner attr cell)
    (hschema : schemaOf c owner attr = some schema) (hnumeric : schema.isNumeric = true)
    (hdefault : HasNumberDefault schema) :
    ∃ a given, cell = .ok a ∧
      (Reader.assignments c strict .start (Text.lines text.toList)).lookup (owner, attr) = some given ∧
      HoldsNumber schema given ((read c strict text).store.nameInfo? (String.ofList given)) a.value := by
  obtain ⟨a, given, info, modulation, rfl, h⟩ := Reader.exists_holds hkeys hcell
  exact ⟨a, given, rfl, h.last, h.holdsNumber hsucceeds hschema hnumeric hdefault⟩

theorem schemaOf_oscillator_octave : ∃ schema,
    schemaOf shippedCatalog (.component "lead" "oscillator") "octave" = some schema ∧
      schema.isNumeric = true :=
  (Option.any_eq_true ..).mp (by decide +kernel)

theorem number_attribute_holds_octave :
    DistinctKeys shippedCatalog ∧
      (read shippedCatalog false "oscillator lead\n  octave 1").succeeds = true ∧ ∃ cell schema,
      (read shippedCatalog false "oscillator lead\n  octave 1").store.HasCell
        (.component "lead" "oscillator") "octave" cell ∧
      schemaOf shippedCatalog (.component "lead" "oscillator") "octave" = some schema ∧
      schema.isNumeric = true ∧ HasNumberDefault schema ∧ ∃ a given info, cell = .ok a ∧
        HoldsNumber schema given info a.value := by
  have hsucceeds : (read shippedCatalog false "oscillator lead\n  octave 1").succeeds = true := by
    decide +kernel
  obtain ⟨cell, hcell, -⟩ := exists_hasCell_of_test
    (read shippedCatalog false "oscillator lead\n  octave 1").store
    (.component "lead" "oscillator") "octave" (fun _ => true) (by decide +kernel)
  obtain ⟨schema, hschema, hnumeric⟩ := schemaOf_oscillator_octave
  have hdefault := hasNumberDefault_of_isSound (shipped_numbers_sound (mem_schemas hschema) hnumeric)
  obtain ⟨a, given, hok, -, hholds⟩ := number_attribute_holds distinctKeys_shippedCatalog hsucceeds hcell
    hschema hnumeric hdefault
  exact ⟨distinctKeys_shippedCatalog, hsucceeds, cell, schema, hcell, hschema, hnumeric, hdefault, a, given,
    _, hok, hholds⟩

def isText : Cell → Bool
  | .ok ⟨some (.literal (.text _)), _⟩ => true
  | _ => false

/-- A number that is written out but is beyond all binary64 values is kept as a text. -/
theorem number_attribute_may_hold_text :
    ¬∀ owner attr cell schema, (read shippedCatalog false "oscillator lead\n  octave 1e999").succeeds = true →
      (read shippedCatalog false "oscillator lead\n  octave 1e999").store.HasCell owner attr cell →
      schemaOf shippedCatalog owner attr = some schema → schema.isNumeric = true →
        ∃ a, cell = .ok a ∧ Numeric a.value := by
  intro hbound
  have hsucceeds : (read shippedCatalog false "oscillator lead\n  octave 1e999").succeeds = true := by
    decide +kernel
  obtain ⟨cell, hcell, htext⟩ := exists_hasCell_of_test
    (read shippedCatalog false "oscillator lead\n  octave 1e999").store
    (.component "lead" "oscillator") "octave" isText (by decide +kernel)
  obtain ⟨schema, hschema, hnumeric⟩ := schemaOf_oscillator_octave
  obtain ⟨⟨_, modulation⟩, rfl, hvalue⟩ := hbound _ _ _ _ hsucceeds hcell hschema hnumeric
  cases hvalue <;> cases htext

/-- In a document by the catalog of the library without errors, an attribute of numbers holds a number or
what stands for one, or the front of a text that is written like a number and is beyond all of them. -/
theorem shipped_number_attribute_holds {text : String}
    (hsucceeds : (read shippedCatalog strict text).succeeds = true) {cell : Cell}
    (hcell : (read shippedCatalog strict text).store.HasCell owner attr cell)
    (hschema : schemaOf shippedCatalog owner attr = some schema) (hnumeric : schema.isNumeric = true) :
    ∃ a given, cell = .ok a ∧
      (Reader.assignments shippedCatalog strict .start (Text.lines text.toList)).lookup (owner, attr) =
        some given ∧
      (Numeric a.value ∨ ∃ number rest, numberFront? given = some (number, rest) ∧
        Datum.ofText number = .text (String.ofList number) ∧
          a.value = some (.literal (.text (String.ofList number)))) := by
  obtain ⟨a, given, info, modulation, rfl, h⟩ := Reader.exists_holds distinctKeys_shippedCatalog hcell
  have hsound := shipped_numbers_sound (mem_schemas hschema) hnumeric
  refine ⟨a, given, rfl, h.last, ?_⟩
  rcases h.holdsNumber hsucceeds hschema hnumeric (hasNumberDefault_of_isSound hsound) with
    hholds | ⟨text, hvalue, hstray⟩
  · exact .inl hholds
  · obtain ⟨number, rest, hfront, hbeyond, rfl⟩ := hstray.beyond_of_isSound hsound
    exact .inr ⟨number, rest, hfront, hbeyond, hvalue⟩

end Instrument.Document
