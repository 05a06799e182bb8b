import Instrument.Proofs.Actions
import Instrument.Proofs.Footprint
import Mathlib.Data.List.Perm.Basic

namespace Instrument.Document

section Lookup

variable {α β : Type} [BEq α] {key : α} {b : β} {entries : List (α × β)}

theorem lookup_map {γ : Type} (f : β → γ) (key : α) (entries : List (α × β)) :
    (entries.map (Prod.map id f)).lookup key = (entries.lookup key).map f := by
  induction entries with
  | nil => rfl
  | cons entry rest ih =>
      obtain ⟨key', b⟩ := entry
      rw [List.map_cons, Prod.map_apply, id, List.lookup_cons, List.lookup_cons, ih]
      cases key == key' <;> rfl

variable [LawfulBEq α]

theorem lookup_toList {entry : Option (α × β)} :
    entry.toList.lookup key = some b ↔ entry = some (key, b) := by
  cases entry with
  | none => simp
  | some entry =>
      obtain ⟨key', b'⟩ := entry
      by_cases h : key = key'
      · simp [h]
      · simp [List.lookup_cons, beq_false_of_ne h, Ne.symm h]

theorem mem_of_lookup (h : entries.lookup key = some b) : (key, b) ∈ entries := by
  obtain ⟨before, after, rfl, -⟩ := List.lookup_eq_some_iff.1 h
  simp

theorem lookup_of_mem (honce : (entries.map Prod.fst).Nodup) (hmem : (key, b) ∈ entries) :
    entries.lookup key = some b := by
  obtain ⟨before, after, rfl⟩ := List.append_of_mem hmem
  refine List.lookup_eq_some_iff.2 ⟨before, after, rfl, ?_⟩
  intro entry hentry
  rw [List.map_append, List.map_cons] at honce
  have hne : entry.1 ≠ key := (List.nodup_append.1 honce).2.2 _ (List.mem_map_of_mem hentry) _
    List.mem_cons_self
  simpa using Ne.symm hne

end Lookup

variable {c : Catalog} {strict : Bool} {owner : Owner} {attr word : String} {schema : AttributeSchema}
  {s : Store} {text : List Char} {info : Option NameInfo}

theorem bindWord_eq_withModulation {i : NameInfo} (h : (i.isVariable || schema.isReference) = true)
    (current : Attribute) :
    bindWord strict owner attr schema current word (some i) =
      ⟨(bindWord strict owner attr schema .empty word (some i)).attr.withModulation current.modulation,
        (bindWord strict owner attr schema .empty word (some i)).complaint⟩ := by
  simp only [bindWord, bindComponent]
  by_cases hvariable : i.isVariable = true
  · simp only [hvariable, if_true]
    split <;> rfl
  · have href : schema.isReference = true := by simpa [hvariable] using h
    simp only [hvariable, href, if_true, Bool.false_eq_true, if_false]
    split
    · rfl
    · split <;> rfl

theorem assign_eq_withModulation (schema : Option AttributeSchema) (current : Attribute) (text : List Char)
    (info : Option NameInfo) :
    assign strict owner attr schema current text info =
      ⟨(assign strict owner attr schema .empty text info).attr.withModulation current.modulation,
        (assign strict owner attr schema .empty text info).complaints⟩ := by
  cases schema with
  | none => rfl
  | some schema =>
      have htyped : assignTyped attr schema current text =
          ⟨(assignTyped attr schema .empty text).attr.withModulation current.modulation,
            (assignTyped attr schema .empty text).complaints⟩ := by
        simp only [assignTyped, choose, measure]
        repeat' split
        all_goals rfl
      simp only [assign, assignName]
      split
      · split
        · split
          · next hany =>
              cases info with
              | none => cases hany
              | some i =>
                  rw [Option.any_some] at hany
                  rw [bindWord_eq_withModulation hany current]
                  rfl
          · split
            · exact htyped
            · rfl
        · split
          · split
            · rfl
            · rw [htyped]
              rfl
          · exact htyped
      · exact htyped

namespace Reader

abbrev Gift : Type := List Char × Option NameInfo

/-- What matters of a gift: of the names that are registered on its line those of variables. -/
def Gift.noted (g : Gift) : Gift := (g.1, g.2.filter (·.isVariable))

/-- What a gift comes to when all names are registered, with the modulation that the attribute has then,
and what is said about it until its word is bound. -/
def concluded (c : Catalog) (strict : Bool) (s : Store) (modulation : Option ComponentRef)
    (target : Owner × String) (given : Gift) : Assigned :=
  let assigned := assign strict target.1 target.2 (schemaOf c target.1 target.2) .empty given.1 given.2
  let bound := bindValue c strict target (assigned.attr.withModulation modulation) s
  ⟨bound.attr, assigned.complaints ++ bound.complaint.toList⟩

theorem bindValue_of_bound {target : Owner × String} {a : Attribute}
    (h : ∀ d, a.value ≠ some (.unresolved d)) : bindValue c strict target a s = .clean a := by
  rw [bindValue]
  split
  · next hword => exact absurd hword (h _)
  · rfl

theorem assign_name_of_some (hname : Text.isName text = true) (href : schema.isReference = true)
    (i : NameInfo) : assign strict owner attr (some schema) .empty text (some i) =
      .ofBound (bindWord strict owner attr schema .empty (String.ofList text) (some i)) := by
  have hresolves : schema.resolvesComponents = true := by
    rw [AttributeSchema.resolvesComponents, href, Bool.true_or]
  have hany : (i.isVariable || schema.isReference) = true := by rw [href, Bool.or_true]
  simp only [assign, hname, assignName, hresolves, Bool.true_or, Option.any_some, hany, if_true]

theorem assign_name_of_none (hname : Text.isName text = true) (href : schema.isReference = true) :
    assign strict owner attr (some schema) .empty text none =
      .clean (Attribute.empty.withValue (some (.unresolved (.text (String.ofList text))))) := by
  have hresolves : schema.resolvesComponents = true := by
    rw [AttributeSchema.resolvesComponents, href, Bool.true_or]
  have htype : (schema.type == .choice) = false := by
    rw [eq_of_beq href]
    rfl
  simp only [assign, hname, assignName, hresolves, Bool.true_or, Option.any_none, htype, if_true,
    Bool.false_eq_true, if_false]

theorem assign_of_component {i : NameInfo} (hvariable : i.isVariable = false)
    (hother : ¬(Text.isName text = true ∧ schema.isReference = true)) :
    assign strict owner attr (some schema) .empty text (some i) =
      assign strict owner attr (some schema) .empty text none := by
  simp only [assign, assignName, Option.any_some, Option.any_none, hvariable, Bool.false_or]
  split
  · next hname =>
      have href : schema.isReference = false := by simpa [hname] using hother
      simp only [href, Bool.false_eq_true, if_false]
  · rfl

theorem Gift.noted_cases (strict : Bool) (owner : Owner) (attr : String) (schema : Option AttributeSchema)
    (g : Gift) :
    assign strict owner attr schema .empty g.noted.1 g.noted.2 =
        assign strict owner attr schema .empty g.1 g.2 ∨
      ∃ takes text i, schema = some takes ∧ Text.isName text = true ∧ takes.isReference = true ∧
        g = (text, some i) ∧ g.noted = (text, none) := by
  obtain ⟨text, info⟩ := g
  cases info with
  | none => exact .inl rfl
  | some i =>
      cases hvariable : i.isVariable with
      | true =>
          rw [Gift.noted, Option.filter_some, if_pos hvariable]
          exact .inl rfl
      | false =>
          have hnoted : Gift.noted (text, some i) = (text, none) := by
            simp [Gift.noted, Option.filter_some, hvariable]
          rw [hnoted]
          cases schema with
          | none => exact .inl rfl
          | some takes =>
              by_cases hreference : Text.isName text = true ∧ takes.isReference = true
              · exact .inr ⟨takes, text, i, rfl, hreference.1, hreference.2, rfl, rfl⟩
              · exact .inl (assign_of_component hvariable hreference).symm

theorem concluded_of_reference {target : Owner × String} {i : NameInfo} (strict : Bool)
    (modulation : Option ComponentRef) (hschema : schemaOf c target.1 target.2 = some schema)
    (hname : Text.isName text = true) (href : schema.isReference = true)
    (hregistered : s.nameInfo? (String.ofList text) = some i) (hinfo : info = some i ∨ info = none) :
    concluded c strict s modulation target (text, info) =
      let bound := bindWord strict target.1 target.2 schema .empty (String.ofList text) (some i)
      ⟨bound.attr.withModulation modulation, bound.complaint.toList⟩ := by
  obtain ⟨owner, attr⟩ := target
  rcases hinfo with rfl | rfl
  · simp only [concluded, hschema, assign_name_of_some hname href i, Assigned.ofBound]
    rw [bindValue_of_bound]
    · simp only [Bound.clean, Option.toList_none, List.append_nil]
    · rw [bindWord_attr]
      exact value_boundAtOnce_ne_unresolved _ _
  · have hany : (i.isVariable || schema.isReference) = true := by rw [href, Bool.or_true]
    simp only [concluded, hschema, assign_name_of_none hname href, Assigned.clean, bindValue,
      Attribute.withModulation, Attribute.withValue, hregistered, List.nil_append]
    rw [bindWord_eq_withModulation hany]
    rfl

theorem concluded_noted (strict : Bool) (modulation : Option ComponentRef) (target : Owner × String)
    {g : Gift} (hinfo : ∀ i, g.2 = some i → s.nameInfo? (String.ofList g.1) = some i) :
    concluded c strict s modulation target g.noted = concluded c strict s modulation target g := by
  rcases Gift.noted_cases strict target.1 target.2 (schemaOf c target.1 target.2) g with
    hsame | ⟨schema, text, i, hschema, hname, href, rfl, hnoted⟩
  · simp only [concluded, hsame]
  · rw [hnoted, concluded_of_reference strict modulation hschema hname href (hinfo i rfl) (.inr rfl),
      concluded_of_reference strict modulation hschema hname href (hinfo i rfl) (.inl rfl)]

variable {r : Reader} {line : List Char} {a : Attribute} {given : List ((Owner × String) × Gift)}
  {attached : List ((Owner × String) × String)}

def gift? (c : Catalog) (line : List Char) (r : Reader) : Option ((Owner × String) × Gift) :=
  (r.assignment? c line).map fun (target, text) =>
    (target, (text, r.store.nameInfo? (String.ofList text)))

def gifts (c : Catalog) (strict : Bool) (r : Reader) : List (List Char) → List ((Owner × String) × Gift)
  | [] => []
  | line :: rest => gifts c strict (r.step c strict line) rest ++ (r.gift? c line).toList

def notedGifts (c : Catalog) (strict : Bool) (r : Reader) (lines : List (List Char)) :
    List ((Owner × String) × Gift) :=
  (gifts c strict r lines).map (Prod.map id Gift.noted)

/-- Each attribute has the value of the latest gift to it. -/
structure Supplied (c : Catalog) (strict : Bool) (given : List ((Owner × String) × Gift)) (r : Reader) :
    Prop where
  value : ∀ {owner attr a}, r.store.HasCell owner attr (.ok a) →
    ∃ text info, given.lookup (owner, attr) = some (text, info) ∧
      a.value = (assign strict owner attr (schemaOf c owner attr) .empty text info).attr.value
  cell : ∀ {owner attr}, (given.lookup (owner, attr)).isSome → ∃ a, r.store.HasCell owner attr (.ok a)
  info : ∀ {target g}, (target, g) ∈ given →
    ∀ i, g.2 = some i → r.store.nameInfo? (String.ofList g.1) = some i

theorem supplied_start : Supplied c strict [] start where
  value h := absurd h not_hasCell_start
  cell h := by simp at h
  info h := by simp at h

theorem gift?_eq_some {target : Owner × String} : r.gift? c line = some (target, (text, info)) ↔
    r.assignment? c line = some (target, text) ∧ r.store.nameInfo? (String.ofList text) = info := by
  rw [gift?]
  cases r.assignment? c line with
  | none => simp
  | some assigned =>
      constructor
      · intro h
        cases h
        exact ⟨rfl, rfl⟩
      · rintro ⟨heq, rfl⟩
        cases heq
        rfl

theorem written?_of_assignment? (h : r.assignment? c line = some ((owner, attr), text)) :
    r.written? c strict line = some ((owner, attr),
      (assign strict owner attr (schemaOf c owner attr) (r.store.read owner attr) text
        (r.store.nameInfo? (String.ofList text))).attr) := by
  rw [written?, h]

theorem Tended.value_step (htended : Tended attached r) (hlinked : Linked c r)
    (hcell : (r.step c strict line).store.HasCell owner attr (.ok a)) :
    (∃ text info, r.gift? c line = some ((owner, attr), (text, info)) ∧
      a.value = (assign strict owner attr (schemaOf c owner attr) .empty text info).attr.value) ∨
    (∀ g, r.gift? c line ≠ some ((owner, attr), g)) ∧
      ∃ b, r.store.HasCell owner attr (.ok b) ∧ b.value = a.value := by
  have hnone (hassigned : ∀ text, r.assignment? c line ≠ some ((owner, attr), text)) (g : Gift) :
      r.gift? c line ≠ some ((owner, attr), g) := fun hgift => hassigned _ (gift?_eq_some.1 hgift).1
  rcases hlinked.hasCell_step.1 hcell with ⟨b, hwrites, heq⟩ | ⟨hother, hbefore⟩
  · obtain rfl := Except.ok.inj heq
    cases hassigned : r.assignment? c line with
    | some assigned =>
        obtain ⟨⟨who, attr'⟩, text⟩ := assigned
        rw [written?_of_assignment? hassigned] at hwrites
        cases hwrites
        refine .inl ⟨text, _, gift?_eq_some.2 ⟨hassigned, rfl⟩, ?_⟩
        rw [assign_eq_withModulation]
        rfl
    | none =>
        -- A modulator is attached to an attribute that is there.
        rw [written?, hassigned] at hwrites
        obtain ⟨⟨⟨who, attr'⟩, name⟩, hattached, heq⟩ := Option.map_eq_some_iff.1 hwrites
        cases heq
        obtain ⟨cursor, hcursor, rfl, rfl, -⟩ := step_of_attachment? strict hattached
        obtain ⟨b, hb⟩ := htended.attr cursor (attr_ready hcursor)
        refine .inr ⟨hnone (by simp [hassigned]), b, hb, ?_⟩
        rw [hb.read_eq hlinked.housed.coherent]
        rfl
  · refine .inr ⟨hnone ?_, a, hbefore, rfl⟩
    intro text hassigned
    exact hother _ (written?_of_assignment? hassigned)

theorem Supplied.step (h : Supplied c strict given r) (hlinked : Linked c r) (htended : Tended attached r)
    (line : List Char) : Supplied c strict ((r.gift? c line).toList ++ given) (r.step c strict line) where
  value {owner attr a} hcell := by
    rcases htended.value_step hlinked hcell with ⟨text, info, hgift, hvalue⟩ | ⟨hother, b, hb, hvalue⟩
    · refine ⟨text, info, ?_, hvalue⟩
      rw [List.lookup_append, lookup_toList.2 hgift, Option.some_or]
    · obtain ⟨text, info, hlookup, hbefore⟩ := h.value hb
      refine ⟨text, info, ?_, hvalue.symm.trans hbefore⟩
      have hnone : (r.gift? c line).toList.lookup (owner, attr) = none :=
        Option.eq_none_iff_forall_ne_some.2 fun g hg => hother g (lookup_toList.1 hg)
      rw [List.lookup_append, hnone, Option.none_or, hlookup]
  cell {owner attr} hlookup := by
    rw [List.lookup_append, Option.isSome_or, Bool.or_eq_true] at hlookup
    rcases hlookup with hhere | hbefore
    · obtain ⟨⟨text, info⟩, hg⟩ := Option.isSome_iff_exists.1 hhere
      obtain ⟨hassigned, -⟩ := gift?_eq_some.1 (lookup_toList.1 hg)
      exact ⟨_, hlinked.hasCell_step.2 (.inl ⟨_, written?_of_assignment? hassigned, rfl⟩)⟩
    · obtain ⟨a, ha⟩ := h.cell hbefore
      exact hlinked.hasCell_step_of_some ha
  info {target g} hmem i hi := by
    rcases List.mem_append.1 hmem with hhere | hbefore
    · obtain ⟨-, hinfo⟩ := gift?_eq_some.1 (Option.mem_toList.1 hhere)
      exact nameInfo?_step_of_some (hinfo.trans hi)
    · exact nameInfo?_step_of_some (h.info hbefore i hi)

theorem supplied_readLines (hkeys : DistinctKeys c) (strict : Bool) (lines : List (List Char)) :
    Supplied c strict (gifts c strict start lines) (readLines c strict start lines) := by
  suffices hrun : ∀ r given attached, Linked c r → Tended attached r → Supplied c strict given r →
      Supplied c strict (gifts c strict r lines ++ given) (readLines c strict r lines) by
    have h := hrun start [] [] linked_start tended_start supplied_start
    rwa [List.append_nil] at h
  induction lines with
  | nil =>
      intro r given attached _ _ h
      exact h
  | cons line rest ih =>
      intro r given attached hlinked htended h
      rw [gifts, List.append_assoc]
      exact ih _ _ _ (hlinked.step hkeys line) (htended.step hlinked strict line)
        (h.step hlinked htended line)

/-- What an attribute is in the end, by what was given to it last and the modulator that was attached to it
last. -/
def outcome (c : Catalog) (strict : Bool) (s : Store) (modulator : Option String)
    (target : Owner × String) (given : Gift) : Attribute :=
  boundModulation c target s (concluded c strict s (modulator.map .named) target given).attr

theorem Supplied.attribute_eq (h : Supplied c strict given r) (htended : Tended attached r)
    (hcell : r.store.HasCell owner attr (.ok a)) :
    ∃ text info, given.lookup (owner, attr) = some (text, info) ∧
      a = (assign strict owner attr (schemaOf c owner attr) .empty text info).attr.withModulation
        ((attached.lookup (owner, attr)).map .named) := by
  obtain ⟨text, info, hlookup, hvalue⟩ := h.value hcell
  refine ⟨text, info, hlookup, ?_⟩
  rw [← htended.modulation hcell, Attribute.withModulation, ← hvalue]

theorem outcome_noted (strict : Bool) (modulator : Option String) (target : Owner × String) {g : Gift}
    (hinfo : ∀ i, g.2 = some i → s.nameInfo? (String.ofList g.1) = some i) :
    outcome c strict s modulator target g.noted = outcome c strict s modulator target g := by
  rw [outcome, concluded_noted strict _ target hinfo, outcome]

theorem Supplied.hasCell_conclude (h : Supplied c strict given r) (htended : Tended attached r)
    (hr : r.store.Legible c) {cell : Cell} :
    (r.conclude c strict).store.HasCell owner attr cell ↔
      ∃ g, given.lookup (owner, attr) = some g ∧
        cell = .ok (outcome c strict r.store (attached.lookup (owner, attr)) (owner, attr) g) := by
  rw [hasCell_conclude_iff hr]
  constructor
  · rintro ⟨a, ha, rfl⟩
    obtain ⟨text, info, hlookup, rfl⟩ := h.attribute_eq htended ha
    exact ⟨(text, info), hlookup, rfl⟩
  · rintro ⟨g, hlookup, rfl⟩
    obtain ⟨a, ha⟩ := h.cell (Option.isSome_iff_exists.2 ⟨g, hlookup⟩)
    obtain ⟨text, info, hsame, rfl⟩ := h.attribute_eq htended ha
    obtain rfl := Option.some.inj (hlookup.symm.trans hsame)
    exact ⟨_, ha, rfl⟩

/-- An attribute is there in the end if some line gives something to it, and is what the last gift comes to.
Of the names that were registered on that line those of components do not matter. -/
theorem hasCell_conclude_readLines (hkeys : DistinctKeys c) (strict : Bool) (lines : List (List Char))
    {cell : Cell} :
    ((readLines c strict start lines).conclude c strict).store.HasCell owner attr cell ↔
      ∃ g, (notedGifts c strict start lines).lookup (owner, attr) = some g ∧
        cell = .ok (outcome c strict (readLines c strict start lines).store
          ((attachments c strict start lines).lookup (owner, attr)) (owner, attr) g) := by
  have hsupplied := supplied_readLines hkeys strict lines
  rw [hsupplied.hasCell_conclude (tended_readLines hkeys strict lines) (founded_readLines c strict lines).legible]
  simp only [notedGifts, lookup_map, Option.map_eq_some_iff, exists_exists_and_eq_and]
  refine exists_congr fun g => and_congr_right fun hlookup => ?_
  rw [outcome_noted strict _ _ (hsupplied.info (mem_of_lookup hlookup))]

def saidOfGift (c : Catalog) (strict : Bool) (target : Owner × String) (given : Gift) : List Complaint :=
  (if (schemaOf c target.1 target.2).isNone then [.unknownAttribute target.2 target.1.kind] else []) ++
    (assign strict target.1 target.2 (schemaOf c target.1 target.2) .empty given.1 given.2).complaints

theorem unlisted?_bindWord (strict : Bool) (owner : Owner) (attr : String) (schema : AttributeSchema)
    (current : Attribute) (word : String) (info : Option NameInfo) :
    (bindWord strict owner attr schema current word info).complaint.bind Complaint.unlisted? = none := by
  have hmoves {modulator : ComponentRef} {moved : Bound}
      (hmoved : moveModulator? current attr schema modulator = some moved) :
      moved.complaint.bind Complaint.unlisted? = none := by
    rw [moveModulator?, Option.ite_none_left_eq_some] at hmoved
    obtain ⟨-, heq⟩ := hmoved
    cases heq
    rfl
  simp only [bindWord, bindComponent, refusal]
  repeat' split
  all_goals first
    | rfl
    | exact hmoves ‹_›

theorem findSome?_saidOfGift_noted (strict : Bool) (target : Owner × String) (g : Gift) :
    (saidOfGift c strict target g.noted).findSome? Complaint.unlisted? =
      (saidOfGift c strict target g).findSome? Complaint.unlisted? := by
  rcases Gift.noted_cases strict target.1 target.2 (schemaOf c target.1 target.2) g with
    hsame | ⟨schema, text, i, hschema, hname, href, rfl, hnoted⟩
  · simp only [saidOfGift, hsame]
  · have hbound := unlisted?_bindWord strict target.1 target.2 schema .empty (String.ofList text) (some i)
    rw [hnoted]
    simp only [saidOfGift, hschema, assign_name_of_some hname href i, assign_name_of_none hname href,
      Assigned.ofBound, Assigned.clean]
    cases hsaid : (bindWord strict target.1 target.2 schema .empty (String.ofList text) (some i)).complaint with
    | none => rfl
    | some complaint =>
        rw [hsaid, Option.bind_some] at hbound
        simp [hbound]

def toldOfGift (c : Catalog) (strict : Bool) (s : Store) (modulator : Option String)
    (target : Owner × String) (given : Gift) : List Complaint :=
  let assigned := assign strict target.1 target.2 (schemaOf c target.1 target.2) .empty given.1 given.2
  let bound := bindValue c strict target (assigned.attr.withModulation (modulator.map .named)) s
  bound.complaint.toList ++ (modulationComplaint? c target s bound.attr).toList

def charge (c : Catalog) (strict : Bool) (s : Store) (modulator : Option String)
    (target : Owner × String) (given : Gift) : List Complaint :=
  saidOfGift c strict target given ++ toldOfGift c strict s modulator target given

theorem charge_noted (strict : Bool) (modulator : Option String) (target : Owner × String) {g : Gift}
    (hinfo : ∀ i, g.2 = some i → s.nameInfo? (String.ofList g.1) = some i) :
    charge c strict s modulator target g.noted = charge c strict s modulator target g := by
  have hcharge (g : Gift) : charge c strict s modulator target g =
      (if (schemaOf c target.1 target.2).isNone then [.unknownAttribute target.2 target.1.kind] else []) ++
        ((concluded c strict s (modulator.map .named) target g).complaints ++
          (modulationComplaint? c target s
            (concluded c strict s (modulator.map .named) target g).attr).toList) := by
    simp only [charge, saidOfGift, toldOfGift, concluded, List.append_assoc]
  rw [hcharge, hcharge, concluded_noted strict _ target hinfo]

def aside (c : Catalog) (strict : Bool) (r : Reader) (line : List Char) : List Complaint :=
  if (r.assignment? c line).isSome then []
  else ((r.step c strict line).issues.drop r.issues.length).map (·.complaint)

def asides (c : Catalog) (strict : Bool) (r : Reader) : List (List Char) → List Complaint
  | [] => []
  | line :: rest => r.aside c strict line ++ asides c strict (r.step c strict line) rest

theorem issues_writeLine (indent : Nat) (owner : Owner) (attr : String) (text : List Char) :
    (r.writeLine c strict indent owner attr text).issues.map (·.complaint) =
      r.issues.map (·.complaint) ++
        saidOfGift c strict (owner, attr) (text, r.store.nameInfo? (String.ofList text)) := by
  simp only [writeLine, complainAll_eq, saidOfGift]
  rw [assign_eq_withModulation]
  split <;> simp [complain, complainAt, Function.comp_def]

theorem issues_step_of_assignment? (strict : Bool)
    (h : r.assignment? c line = some ((owner, attr), text)) :
    (r.step c strict line).issues.map (·.complaint) = r.issues.map (·.complaint) ++
      saidOfGift c strict (owner, attr) (text, r.store.nameInfo? (String.ofList text)) := by
  rw [(step_of_assignment? strict h).2, issues_writeLine, ready, issues_settle, store_settle]

theorem complaints_readLines (c : Catalog) (strict : Bool) (lines : List (List Char)) :
    ∀ r, ((readLines c strict r lines).issues.map (·.complaint)).Perm
      (r.issues.map (·.complaint) ++ (asides c strict r lines ++
        (gifts c strict r lines).flatMap fun g => saidOfGift c strict g.1 g.2)) := by
  induction lines with
  | nil =>
      intro r
      simp [readLines, asides, gifts]
  | cons line rest ih =>
      intro r
      refine (ih (r.step c strict line)).trans ?_
      obtain ⟨complaints, -, hissues⟩ := (@records_step c r strict line).issues_eq
      cases hassigned : r.assignment? c line with
      | none =>
          have hgift : r.gift? c line = none := by rw [gift?, hassigned, Option.map_none]
          have haside : (r.step c strict line).issues.map (·.complaint) =
              r.issues.map (·.complaint) ++ r.aside c strict line := by
            rw [aside, hassigned, hissues, List.drop_left, List.map_append]
            rfl
          rw [asides, gifts, hgift, haside, Option.toList_none, List.append_nil, List.append_assoc,
            List.append_assoc]
      | some assigned =>
          obtain ⟨⟨owner, attr⟩, text⟩ := assigned
          have hgift := gift?_eq_some.2 ⟨hassigned, rfl⟩
          have hsaid := issues_step_of_assignment? strict hassigned
          have haside : r.aside c strict line = [] := by rw [aside, hassigned]; rfl
          rw [asides, gifts, hgift, haside, hsaid, Option.toList_some, List.flatMap_append,
            List.flatMap_singleton, List.nil_append, List.append_assoc]
          refine List.Perm.append_left _ ?_
          rw [← List.append_assoc (asides ..)]
          exact List.perm_append_comm

theorem Supplied.told_perm (h : Supplied c strict given r) (htended : Tended attached r)
    (hr : r.store.Legible c) (honce : (given.map Prod.fst).Nodup) :
    (((targets r.store).flatMap (r.told c strict)).map (·.complaint)).Perm
      (given.flatMap fun g => toldOfGift c strict r.store (attached.lookup g.1) g.1 g.2) := by
  have htargets : (targets r.store).Perm (given.map Prod.fst) := by
    rw [List.perm_ext_iff_of_nodup (targets_nodup hr) honce]
    rintro ⟨owner, attr⟩
    rw [mem_targets_of_legible hr]
    constructor
    · rintro ⟨cell, hcell⟩
      obtain ⟨a, rfl⟩ := hr.readable _ _ _ hcell
      obtain ⟨text, info, hlookup, -⟩ := h.value hcell
      exact List.mem_map_of_mem (mem_of_lookup hlookup)
    · intro hmem
      obtain ⟨⟨target, g⟩, hg, rfl⟩ := List.mem_map.1 hmem
      obtain ⟨a, ha⟩ := h.cell (Option.isSome_iff_exists.2 ⟨g, lookup_of_mem honce hg⟩)
      exact ⟨_, ha⟩
  rw [List.map_flatMap]
  refine (htargets.flatMap_right _).trans ?_
  rw [List.flatMap_map]
  refine List.Perm.of_eq (List.flatMap_congr ?_)
  rintro ⟨⟨owner, attr⟩, g⟩ hg
  have hlookup := lookup_of_mem honce hg
  obtain ⟨a, ha⟩ := h.cell (Option.isSome_iff_exists.2 ⟨g, hlookup⟩)
  obtain ⟨text, info, hsame, rfl⟩ := h.attribute_eq htended ha
  obtain rfl := Option.some.inj (hlookup.symm.trans hsame)
  simp only [told, toldOfModulator, toldOfGift, ha.read_eq hr.coherent, List.map_append,
    ← Option.toList_map, Option.map_map, Function.comp_def, Option.map_id']

theorem Supplied.complaints_perm (h : Supplied c strict given r) (htended : Tended attached r)
    (hr : r.store.Legible c) (honce : (given.map Prod.fst).Nodup) {others : List Complaint}
    (hissues : (r.issues.map (·.complaint)).Perm
      (others ++ given.flatMap fun g => saidOfGift c strict g.1 g.2)) :
    ((r.conclude c strict).issues.map (·.complaint)).Perm
      (others ++ given.flatMap fun g => charge c strict r.store (attached.lookup g.1) g.1 g.2) := by
  rw [issues_conclude hr, List.map_append]
  refine (hissues.append (h.told_perm htended hr honce)).trans ?_
  rw [List.append_assoc]
  exact (List.flatMap_append_perm given _ _).append_left _

theorem map_fst_notedGifts (c : Catalog) (strict : Bool) (lines : List (List Char)) (r : Reader) :
    (notedGifts c strict r lines).map Prod.fst = (gifts c strict r lines).map Prod.fst := by
  rw [notedGifts, List.map_map]
  rfl

theorem map_fst_gifts (c : Catalog) (strict : Bool) (lines : List (List Char)) :
    ∀ r, (gifts c strict r lines).map Prod.fst = (assignments c strict r lines).map Prod.fst := by
  induction lines with
  | nil =>
      intro r
      rfl
  | cons line rest ih =>
      intro r
      rw [gifts, assignments, List.map_append, List.map_append, ih, gift?]
      cases r.assignment? c line <;> rfl

/-- What is said about a document in all, in whatever order, where each attribute is given something once:
what is said about lines that give nothing to an attribute, and about each gift what it comes to. -/
theorem complaints_conclude_readLines (hkeys : DistinctKeys c) (strict : Bool) (lines : List (List Char))
    (honce : ((gifts c strict start lines).map Prod.fst).Nodup) :
    (((readLines c strict start lines).conclude c strict).issues.map (·.complaint)).Perm
      (asides c strict start lines ++ (notedGifts c strict start lines).flatMap fun g =>
        charge c strict (readLines c strict start lines).store
          ((attachments c strict start lines).lookup g.1) g.1 g.2) := by
  have hsupplied := supplied_readLines hkeys strict lines
  have hissues := complaints_readLines c strict lines start
  rw [show start.issues = [] from rfl, List.map_nil, List.nil_append] at hissues
  refine (hsupplied.complaints_perm (tended_readLines hkeys strict lines)
    (founded_readLines c strict lines).legible honce hissues).trans ?_
  rw [notedGifts, List.flatMap_map]
  refine List.Perm.append_left _ (List.Perm.of_eq (List.flatMap_congr ?_))
  intro g hg
  exact (charge_noted strict _ g.1 (hsupplied.info hg)).symm

end Reader

end Instrument.Document
