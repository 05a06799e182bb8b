import Instrument.Proofs.Linking

namespace Instrument

namespace Store

variable {s t : Store} {owner other : Owner} {attr attr' : String} {cell cell' : Cell} {a : Attribute}

theorem HasCell.unique (hs : s.Coherent) (h : s.HasCell owner attr cell)
    (h' : s.HasCell owner attr cell') : cell = cell' := by
  have hcell := (hs.cell?_eq_some h.knows).2 h
  have hcell' := (hs.cell?_eq_some h.knows).2 h'
  exact Option.some.inj (hcell.symm.trans hcell')

theorem HasCell.read_eq (hs : s.Coherent) (h : s.HasCell owner attr (.ok a)) :
    s.read owner attr = a :=
  read_eq_of_cell? ((hs.cell?_eq_some h.knows).2 h)

theorem HasCell.of_confined {home : Option String} (hconfined : Confined home none s t)
    (hknown : t.Knows owner) (h : s.HasCell owner attr cell) : t.HasCell owner attr cell := by
  cases owner with
  | component name kind =>
      obtain ⟨scope, c, hc, hcell⟩ := h
      refine ⟨scope, c, Classical.byContradiction fun hne => ?_, hcell⟩
      rw [← hc] at hne
      rcases (hconfined.of_component _ _ _ hne).2 with hnone | howner
      · rw [hc] at hnone
        cases hnone
      · cases howner
  | trigger key kind =>
      obtain ⟨x, hx, -, hcell⟩ := h
      obtain ⟨y, hy, hkind⟩ := hknown
      have hsame : t.triggerCell? key attr = s.triggerCell? key attr := by
        refine Classical.byContradiction fun hne => ?_
        obtain ⟨kind', howner⟩ := hconfined.of_cell _ _ hne
        cases howner
      simp only [triggerCell?, triggerCells, hx, hy] at hsame
      exact ⟨y, hy, hkind, hsame.trans hcell⟩

end Store

namespace Document

def standIn (schema : AttributeSchema) : Option Value :=
  match schema.default with
  | .null => none
  | d => some (.literal (Datum.ofText d.shown.toList))

/-- The attribute that a bare word comes to, by what is registered under the word and by the
modulation that the attribute has. -/
def boundAtOnce (strict : Bool) (schema : AttributeSchema) (word : String) (info : Option NameInfo)
    (modulation : Option ComponentRef) : Attribute :=
  match info with
  | none => ⟨some (.literal (.text word)), modulation⟩
  | some info =>
    if info.isVariable then
      if schema.canReferenceVariables then ⟨some (.variableRef (.text word)), modulation⟩
      else ⟨some (.literal (.text word)), modulation⟩
    else if schema.isReference then
      if info.kind ∈ schema.acceptsComponents then
        ⟨some (.componentRef (.bound word info.kind)), modulation⟩
      else ⟨some (.literal (.text word)), modulation⟩
    else if info.kind ∈ schema.acceptsModulation ∧ strict = false ∧ modulation = none then
      ⟨standIn schema, some (.bound word info.kind)⟩
    else ⟨some (.literal (.text word)), modulation⟩

variable {c : Catalog} {strict : Bool} {schema : AttributeSchema} {word : String} {owner : Owner}
  {attr : String}

theorem moveModulator?_eq (current : Attribute) (attr : String) (schema : AttributeSchema)
    (modulator : ComponentRef) :
    (moveModulator? current attr schema modulator).map Bound.attr =
      if current.modulation = none then some ⟨standIn schema, some modulator⟩ else none := by
  rw [moveModulator?]
  cases current.modulation with
  | none => rfl
  | some ref => rfl

theorem bindWord_attr (strict : Bool) (owner : Owner) (attr : String) (schema : AttributeSchema)
    (current : Attribute) (word : String) (info : Option NameInfo) :
    (bindWord strict owner attr schema current word info).attr =
      boundAtOnce strict schema word info current.modulation := by
  cases info with
  | none => rfl
  | some info =>
      simp only [bindWord, boundAtOnce]
      by_cases hvariable : info.isVariable = true
      · rw [if_pos hvariable, if_pos hvariable]
        split <;> rfl
      rw [if_neg hvariable, if_neg hvariable]
      cases href : schema.isReference with
      | true =>
          simp only [AttributeSchema.resolvesComponents, AttributeSchema.accepts,
            AttributeSchema.allowList, bindComponent, href, Bool.true_or, Bool.not_true,
            Bool.false_eq_true, if_false, if_true]
          by_cases haccepts : info.kind ∈ schema.acceptsComponents
          · simp [haccepts, Bound.clean, Attribute.withValue]
          · simp [haccepts, Bound.raw, Attribute.withValue]
      | false =>
          simp only [AttributeSchema.resolvesComponents, AttributeSchema.receivesModulation,
            AttributeSchema.accepts, AttributeSchema.allowList, bindComponent, href, Bool.false_or,
            Bool.not_not, Bool.false_eq_true, if_false]
          by_cases haccepts : info.kind ∈ schema.acceptsModulation
          · have hsome : schema.acceptsModulation.isEmpty = false := by
              rw [List.isEmpty_eq_false_iff]
              exact List.ne_nil_of_mem haccepts
            cases strict with
            | true => simp [haccepts, hsome, Bound.raw, Attribute.withValue]
            | false =>
                have hmove := moveModulator?_eq current attr schema (.bound word info.kind)
                by_cases hmodulation : current.modulation = none
                · rw [if_pos hmodulation, Option.map_eq_some_iff] at hmove
                  obtain ⟨moved, hmoved, hattr⟩ := hmove
                  simp [haccepts, hsome, hmodulation, hmoved, hattr]
                · rw [if_neg hmodulation, Option.map_eq_none_iff] at hmove
                  simp [haccepts, hsome, hmodulation, hmove, Bound.raw, Attribute.withValue]
          · have hraw : (Bound.raw current word (refusal attr info.kind schema)).attr =
                ⟨some (.literal (.text word)), current.modulation⟩ := rfl
            rw [if_neg (not_and_of_not_left _ haccepts)]
            split
            · rfl
            · simp [haccepts, Bound.raw, Attribute.withValue]

theorem boundAtOnce_of_settled {info : NameInfo} (h : (info.isVariable || schema.isReference) = true)
    (modulation : Option ComponentRef) :
    boundAtOnce strict schema word (some info) modulation =
      ⟨(boundAtOnce strict schema word (some info) none).value, modulation⟩ := by
  simp only [boundAtOnce]
  by_cases hvariable : info.isVariable = true
  · rw [if_pos hvariable, if_pos hvariable]
    split <;> rfl
  · have href : schema.isReference = true := by simpa [hvariable] using h
    rw [if_neg hvariable, if_neg hvariable, if_pos href, if_pos href]
    split <;> rfl

namespace Reader

open Text

variable {r : Reader} {kind : LineKind} {t : Store} {line : List Char} {a : Attribute}

theorem Effect.nameInfo?_some (h : Effect c strict r kind t) {name : String} {info : NameInfo}
    (hinfo : r.store.nameInfo? name = some info) : t.nameInfo? name = some info := by
  cases h with
  | unchanged => exact hinfo
  | declared name' value range => exact (Store.grows_addVariable ..).nameInfo? hinfo
  | overridden frame name' value hscope =>
      rw [(Store.keeps_setOverride ..).nameInfo?_eq]
      exact hinfo
  | entered frame hheader =>
      rw [(Store.keeps_declareTrigger ..).nameInfo?_eq]
      exact hinfo
  | added kind name' hkind =>
      obtain ⟨-, hstore⟩ | ⟨-, hfree, hstore⟩ := Store.addComponent_bare r.store kind name' r.home
      · rw [hstore]
        exact hinfo
      · rw [hstore, Store.nameInfo?_placeComponent]
        exact Store.nameInfo?_withName_of_some hfree hinfo
  | assigned who attr text howner =>
      rw [(Store.keeps_write ..).nameInfo?_eq]
      exact hinfo
  | modulated cursor name' hattr =>
      rw [(Store.keeps_write ..).nameInfo?_eq]
      exact hinfo

theorem Linked.value_of_effect (h : Linked c r) (heffect : Effect c strict r kind t)
    (hkind : kind ≠ .assignment) (hcell : r.store.HasCell owner attr (.ok a)) :
    ∃ b, t.HasCell owner attr (.ok b) ∧ b.value = a.value := by
  have hknown := (h.effect heffect).2 hcell.knows
  cases heffect with
  | unchanged => exact ⟨a, hcell, rfl⟩
  | declared name value range =>
      exact ⟨a, hcell.of_confined (Store.confined_addVariable ..) hknown, rfl⟩
  | overridden frame name value hscope =>
      exact ⟨a, hcell.of_confined (Store.confined_setOverride ..) hknown, rfl⟩
  | entered frame hheader =>
      have hconfined : r.store.Confined none none (r.store.declareTrigger frame.key frame.kind) :=
        Store.confined_declareTrigger ..
      exact ⟨a, hcell.of_confined hconfined hknown, rfl⟩
  | added kind name hkind =>
      exact ⟨a, hcell.of_confined (Store.confined_addComponent h.housed.coherent kind name) hknown, rfl⟩
  | assigned who attr' text howner => exact absurd rfl hkind
  | modulated cursor name hattr =>
      have hcursor := h.attr_known cursor hattr
      rw [h.kept.readable.write_eq h.housed.coherent hcursor]
      by_cases hsame : owner = cursor.owner ∧ attr = cursor.name
      · obtain ⟨rfl, rfl⟩ := hsame
        refine ⟨_, Store.hasCell_setCell h.housed.coherent hcursor _ _, ?_⟩
        rw [hcell.read_eq h.housed.coherent]
        rfl
      · exact ⟨a, hcell.setCell_of_ne h.housed.coherent hcursor hsame, rfl⟩

def assignment? (c : Catalog) (line : List Char) (r : Reader) : Option ((Owner × String) × List Char) :=
  let now := r.ready line
  let header := Header.ofContent (strip line)
  if r.passes line = false ∧
      now.classify c (indentOf line) (String.ofList (firstWord (strip line))) = .assignment ∧
      header.rest.isEmpty = false then
    (now.owner.filter (takesAttributes c ·)).map fun owner => ((owner, header.word), header.rest)
  else none

def assignments (c : Catalog) (strict : Bool) (r : Reader) :
    List (List Char) → List ((Owner × String) × List Char)
  | [] => []
  | line :: rest => assignments c strict (r.step c strict line) rest ++ (r.assignment? c line).toList

theorem step_of_assignment? (strict : Bool) {text : List Char}
    (h : r.assignment? c line = some ((owner, attr), text)) :
    (r.ready line).owner = some owner ∧
      r.step c strict line = (r.ready line).writeLine c strict (indentOf line) owner attr text := by
  simp only [assignment?] at h
  split at h
  · next hreads =>
      obtain ⟨hpasses, hassigns, hrest⟩ := hreads
      obtain ⟨who, hwho, heq⟩ := Option.map_eq_some_iff.1 h
      obtain ⟨howner, htakes⟩ := Option.filter_eq_some_iff.1 hwho
      cases heq
      refine ⟨howner, ?_⟩
      rw [step_of_not_passes hpasses, dispatch, hassigns]
      simp only [act, assignLine, howner, hrest, htakes, Bool.not_true, Bool.false_eq_true, if_false]
  · cases h

theorem effect_of_not_assignment (strict : Bool) (h : r.assignment? c line = none) :
    ∃ kind, kind ≠ .assignment ∧ Effect c strict (r.ready line) kind (r.step c strict line).store := by
  cases hpasses : r.passes line with
  | true =>
      have hsame : (r.step c strict line).store = (r.ready line).store := by
        rw [step_of_passes hpasses, ready, store_settle]
      rw [hsame]
      exact ⟨.declaration, by decide, .unchanged _⟩
  | false =>
      rw [step_of_not_passes hpasses]
      by_cases hkind : (r.ready line).classify c (indentOf line)
          (String.ofList (firstWord (strip line))) = .assignment
      · have hsame : ((r.ready line).dispatch c strict (indentOf line) (strip line)).store =
            (r.ready line).store := by
          rw [dispatch, hkind]
          simp only [act, assignLine]
          cases howner : (r.ready line).owner with
          | none => rfl
          | some who =>
              simp only
              split
              · rfl
              · next hrest =>
                  split
                  · rfl
                  · next htakes =>
                      simp_all [assignment?]
        rw [hsame]
        exact ⟨.declaration, by decide, .unchanged _⟩
      · exact ⟨_, hkind, effect_dispatch _ _⟩

theorem Linked.ready (h : Linked c r) (line : List Char) : Linked c (r.ready line) := by
  have hnext : Linked c { r with line := r.line + 1 } :=
    ⟨⟨h.housed.coherent, h.housed.component_home⟩, h.kept, h.frame_known, h.trigger_known, h.attr_known⟩
  exact hnext.settle (indentOf line)

/-- The value of an attribute after a line gave it a bare word: the word, or what the word was bound
to where nothing that is still to come could change that. -/
def Given (strict : Bool) (schema : AttributeSchema) (owner : Owner) (attr word : String) (s : Store) :
    Prop :=
  ∃ a, s.HasCell owner attr (.ok a) ∧
    (a.value = some (.unresolved (.text word)) ∨
      ∃ info, s.nameInfo? word = some info ∧ (info.isVariable || schema.isReference) = true ∧
        a.value = (boundAtOnce strict schema word (some info) none).value)

theorem given_assign {current : Attribute} {text : List Char} {s : Store}
    (htype : schema.type ≠ .choice)
    (hopen : (schema.resolvesComponents || schema.canReferenceVariables) = true)
    (hschema : schemaOf c owner attr = some schema) (hname : isName text = true)
    (hnames : ∀ {info}, s.nameInfo? (String.ofList text) = some info →
      t.nameInfo? (String.ofList text) = some info)
    (hcell : t.HasCell owner attr (.ok (assign strict owner attr (schemaOf c owner attr) current text
      (s.nameInfo? (String.ofList text))).attr)) :
    Given strict schema owner attr (String.ofList text) t := by
  refine ⟨_, hcell, ?_⟩
  have htype' : (schema.type == .choice) = false := beq_eq_false_iff_ne.2 htype
  simp only [assign, hschema, hname, assignName, hopen, htype', if_true, Bool.false_eq_true, if_false]
  split
  · next hany =>
      cases hinfo : s.nameInfo? (String.ofList text) with
      | none => simp [hinfo] at hany
      | some info =>
          rw [hinfo, Option.any_some] at hany
          refine .inr ⟨info, hnames hinfo, hany, ?_⟩
          rw [Assigned.ofBound, bindWord_attr, boundAtOnce_of_settled hany]
  · exact .inl rfl

theorem Given.keep {s : Store} (h : Given strict schema owner attr word s)
    (hcells : ∀ {a}, s.HasCell owner attr (.ok a) → ∃ b, t.HasCell owner attr (.ok b) ∧ b.value = a.value)
    (hnames : ∀ {name info}, s.nameInfo? name = some info → t.nameInfo? name = some info) :
    Given strict schema owner attr word t := by
  obtain ⟨a, ha, hvalue⟩ := h
  obtain ⟨b, hb, hsame⟩ := hcells ha
  refine ⟨b, hb, ?_⟩
  rw [hsame]
  rcases hvalue with hword | ⟨info, hinfo, hsettled, hbound⟩
  · exact .inl hword
  · exact .inr ⟨info, hnames hinfo, hsettled, hbound⟩

theorem Linked.write_eq (h : Linked c r) {who : Owner} (hwho : r.owner = some who) (attr : String)
    (a : Attribute) : r.store.write who attr a = r.store.setCell who attr (.ok a) :=
  h.kept.readable.write_eq h.housed.coherent (h.allOpen.owner hwho) a

theorem Linked.given_of_assignment {text : List Char} (h : Linked c r)
    (hschema : schemaOf c owner attr = some schema) (htype : schema.type ≠ .choice)
    (hopen : (schema.resolvesComponents || schema.canReferenceVariables) = true)
    (hname : isName text = true) (hgives : r.assignment? c line = some ((owner, attr), text)) :
    Given strict schema owner attr (String.ofList text) (r.step c strict line).store := by
  obtain ⟨howner, hstep⟩ := step_of_assignment? strict hgives
  have hnow := h.ready line
  have hstore : (r.step c strict line).store = (r.ready line).store.setCell owner attr (.ok
      (assign strict owner attr (schemaOf c owner attr) ((r.ready line).store.read owner attr) text
        ((r.ready line).store.nameInfo? (String.ofList text))).attr) := by
    rw [hstep, ← hnow.write_eq howner]
    rfl
  rw [hstore]
  refine given_assign htype hopen hschema hname ?_
    (Store.hasCell_setCell hnow.housed.coherent (hnow.allOpen.owner howner) _ _)
  intro info hinfo
  rw [(Store.keeps_setCell ..).nameInfo?_eq]
  exact hinfo

theorem Linked.given_of_other (h : Linked c r)
    (hgives : ∀ text, r.assignment? c line ≠ some ((owner, attr), text))
    (hgiven : Given strict schema owner attr word r.store) :
    Given strict schema owner attr word (r.step c strict line).store := by
  have hnow := h.ready line
  have hgiven' : Given strict schema owner attr word (r.ready line).store := by
    rw [Reader.ready, store_settle]
    exact hgiven
  cases hassigns : r.assignment? c line with
  | none =>
      obtain ⟨kind, hkind, heffect⟩ := effect_of_not_assignment strict hassigns
      exact hgiven'.keep (hnow.value_of_effect heffect hkind) heffect.nameInfo?_some
  | some assigned =>
      obtain ⟨⟨who, attr'⟩, text⟩ := assigned
      obtain ⟨howner, hstep⟩ := step_of_assignment? strict hassigns
      have hne : ¬(owner = who ∧ attr = attr') := by
        rintro ⟨rfl, rfl⟩
        exact hgives text hassigns
      have hstore : ∃ b, (r.step c strict line).store = (r.ready line).store.setCell who attr' (.ok b) := by
        rw [hstep]
        exact ⟨_, hnow.write_eq howner ..⟩
      obtain ⟨b, hstore⟩ := hstore
      rw [hstore]
      refine hgiven'.keep ?_ ?_
      · intro a ha
        exact ⟨a, ha.setCell_of_ne hnow.housed.coherent (hnow.allOpen.owner howner) hne, rfl⟩
      · intro name info hinfo
        rw [(Store.keeps_setCell ..).nameInfo?_eq]
        exact hinfo

theorem given_readLines (strict : Bool) (hkeys : DistinctKeys c)
    (hschema : schemaOf c owner attr = some schema)
    (htype : schema.type ≠ .choice)
    (hopen : (schema.resolvesComponents || schema.canReferenceVariables) = true)
    (lines : List (List Char)) :
    ∀ r, Linked c r →
      (∀ text, (assignments c strict r lines).lookup (owner, attr) = some text → isName text = true →
        Given strict schema owner attr (String.ofList text) (readLines c strict r lines).store) ∧
      ((assignments c strict r lines).lookup (owner, attr) = none →
        ∀ word, Given strict schema owner attr word r.store →
          Given strict schema owner attr word (readLines c strict r lines).store) := by
  induction lines with
  | nil =>
      intro r h
      refine ⟨?_, fun _ word hgiven => hgiven⟩
      intro text htext
      cases htext
  | cons line rest ih =>
      intro r h
      obtain ⟨hlater, hkept⟩ := ih (r.step c strict line) (h.step hkeys line)
      have hlookup : (assignments c strict r (line :: rest)).lookup (owner, attr) =
          ((assignments c strict (r.step c strict line) rest).lookup (owner, attr)).or
            ((r.assignment? c line).toList.lookup (owner, attr)) := List.lookup_append
      have hhere : ∀ text, (r.assignment? c line).toList.lookup (owner, attr) = some text ↔
          r.assignment? c line = some ((owner, attr), text) := by
        intro text
        cases r.assignment? c line with
        | none => simp
        | some assigned =>
            obtain ⟨target, text'⟩ := assigned
            by_cases htarget : (owner, attr) = target
            · simp [htarget]
            · simp [List.lookup_cons, beq_false_of_ne htarget, Ne.symm htarget]
      rw [hlookup]
      cases hrest : (assignments c strict (r.step c strict line) rest).lookup (owner, attr) with
      | some text' =>
          refine ⟨?_, by simp⟩
          intro text htext hname
          rw [Option.some_or] at htext
          exact hlater text (hrest.trans htext) hname
      | none =>
          rw [Option.none_or]
          refine ⟨?_, ?_⟩
          · intro text htext hname
            exact hkept hrest _ (h.given_of_assignment hschema htype hopen hname ((hhere text).1 htext))
          · intro hnone word hgiven
            refine hkept hrest word (h.given_of_other ?_ hgiven)
            intro text htext
            rw [(hhere text).2 htext] at hnone
            cases hnone

end Reader

end Document

end Instrument
