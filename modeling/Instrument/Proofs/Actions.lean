import Instrument.Proofs.Findings
import Instrument.Store.Actions

namespace Instrument

namespace Store

variable {s t : Store} {owner : Owner} {attr key : String} {names : List String}

theorem triggerCells_changeTrigger_of_keep (s : Store) (key other : String) {f : Trigger → Trigger}
    (hf : ∀ x, (f x).attributes = x.attributes) :
    (s.changeTrigger key f).triggerCells other = s.triggerCells other := by
  rw [triggerCells, trigger?_changeTrigger]
  by_cases h : other = key
  · rw [if_pos h, h, ← s.attributes_triggerOrFresh key ""]
    exact hf _
  · rw [if_neg h, triggerCells]

theorem triggerCells_declareTrigger (s : Store) (key kind other : String) :
    (s.declareTrigger key kind).triggerCells other = s.triggerCells other := by
  rw [triggerCells, trigger?_declareTrigger]
  by_cases h : other = key
  · rw [if_pos h, h]
    exact s.attributes_triggerOrFresh key kind
  · rw [if_neg h, triggerCells]

theorem triggerCells_addVariable (s : Store) (name : String) (v : Value) (home : Option String)
    (lower upper : Datum) (line : Option Int) (key : String) :
    (s.addVariable name (.value v) (.ofHome home) home lower upper line).store.triggerCells key =
      s.triggerCells key := by
  rw [triggerCells, trigger?_addVariable, triggerCells]

theorem triggerCells_addComponent (s : Store) (kind name : String) (home : Option String)
    (key : String) :
    (s.addComponent kind name (.ofHome home) home []).store.triggerCells key = s.triggerCells key := by
  obtain ⟨-, hstore⟩ | ⟨-, -, hstore⟩ := addComponent_bare s kind name home
  · rw [hstore]
  · rw [hstore, placeComponent]
    cases home with
    | none => rfl
    | some key' => exact triggerCells_changeTrigger_of_keep _ _ _ fun _ => rfl

def attributeOf? (key : String) : Owner × String → Option String
  | (.trigger key' _, attr) => if key' = key then some attr else none
  | (.component .., _) => none

def Lists (s : Store) (key : String) (names : List String) : Prop :=
  (s.triggerCells key).keys = names.eraseDups

theorem triggerCells_setCell (s : Store) (owner : Owner) (attr : String) (cell : Cell) (key : String) :
    (s.setCell owner attr cell).triggerCells key =
      match attributeOf? key (owner, attr) with
      | some attr => (s.triggerCells key).insert attr cell
      | none => s.triggerCells key := by
  cases owner with
  | component name kind =>
      obtain ⟨g, hg, htrigger⟩ := s.trigger?_changeComponent name key (·.setCell attr cell)
      rw [setCell, triggerCells, htrigger, triggerCells]
      cases s.trigger? key with
      | none => rfl
      | some x => exact (hg x).2.2.1
  | trigger key' kind =>
      rw [setCell, triggerCells, trigger?_changeTrigger, attributeOf?]
      by_cases h : key = key'
      · rw [if_pos h, if_pos h.symm, h, ← s.attributes_triggerOrFresh key' ""]
        rfl
      · rw [if_neg h, if_neg (Ne.symm h)]
        rfl

theorem Lists.setCell (h : s.Lists key names) (owner : Owner) (attr : String) (cell : Cell) :
    (s.setCell owner attr cell).Lists key (names ++ (attributeOf? key (owner, attr)).toList) := by
  rw [Lists, triggerCells_setCell]
  cases attributeOf? key (owner, attr) with
  | none =>
      rw [Option.toList_none, List.append_nil]
      exact h
  | some attr =>
      have hone : [attr].eraseDups = [attr] := by simp [List.eraseDups_cons]
      rw [Table.keys_insert, h, Option.toList_some, List.eraseDups_append]
      by_cases hmem : attr ∈ names
      · simp [hmem, List.removeAll]
      · simp [hmem, List.removeAll, hone]

theorem mem_entries_triggerCells {cell : Cell} :
    (attr, cell) ∈ (s.triggerCells key).entries ↔ ∃ kind, s.HasCell (.trigger key kind) attr cell := by
  rw [← Table.get?_eq_some_iff, triggerCells]
  cases hx : s.trigger? key with
  | none => simp [HasCell, hx]
  | some x => simp [HasCell, hx]

theorem keys_setCell_of_hasCell {cell cell' : Cell} (hcell : s.HasCell owner attr cell) (key : String) :
    ((s.setCell owner attr cell').triggerCells key).keys = (s.triggerCells key).keys := by
  rw [triggerCells_setCell]
  cases hattr : attributeOf? key (owner, attr) with
  | none => rfl
  | some attr' =>
      cases owner with
      | component name kind => cases hattr
      | trigger key' kind =>
          obtain ⟨x, hx, -, hget⟩ := hcell
          rw [attributeOf?] at hattr
          split at hattr
          · next hkey =>
              subst hkey
              obtain rfl := Option.some.inj hattr
              have hmem : attr ∈ (s.triggerCells key').keys := by
                rw [Table.mem_keys_iff, triggerCells, hx]
                exact Option.isSome_iff_exists.2 ⟨cell, hget⟩
              rw [Table.keys_insert, if_pos hmem]
          · cases hattr

end Store

namespace Document.Reader

open Text

variable {c : Catalog} {strict : Bool} {r : Reader} {line : List Char} {owner : Owner} {attr key : String}
  {a : Attribute} {kind : LineKind} {t s : Store} {names : List String}
  {attached : List ((Owner × String) × String)}

theorem triggerCells_of_effect (heffect : Effect c strict r kind t) (hassigns : kind ≠ .assignment)
    (hmodulates : kind ≠ .modulation) (key : String) : t.triggerCells key = r.store.triggerCells key := by
  cases heffect with
  | unchanged => rfl
  | declared name value range => exact Store.triggerCells_addVariable ..
  | overridden frame name value hscope =>
      exact Store.triggerCells_changeTrigger_of_keep _ _ _ fun _ => rfl
  | entered frame hheader => exact Store.triggerCells_declareTrigger ..
  | added kind name hkind => exact Store.triggerCells_addComponent ..
  | assigned who attr' text howner => exact absurd rfl hassigns
  | modulated cursor name hattr => exact absurd rfl hmodulates

theorem triggerCells_of_not_written (hwrites : r.written? c strict line = none) (key : String) :
    (r.step c strict line).store.triggerCells key = r.store.triggerCells key := by
  rcases effect_of_not_written hwrites with hsame | ⟨kind, hassigns, hmodulates, heffect⟩
  · rw [hsame]
  · rw [triggerCells_of_effect heffect hassigns hmodulates, store_ready]

def attachments (c : Catalog) (strict : Bool) (r : Reader) :
    List (List Char) → List ((Owner × String) × String)
  | [] => []
  | line :: rest => attachments c strict (r.step c strict line) rest ++ (r.attachment? c line).toList

/-- Where lines have attached these modulators, the latest first, each attribute waits for the latest of
its own, and the attributes that are modulated or open are there. -/
structure Tended (attached : List ((Owner × String) × String)) (r : Reader) : Prop where
  modulation : ∀ {owner attr a}, r.store.HasCell owner attr (.ok a) →
    a.modulation = (attached.lookup (owner, attr)).map .named
  cell : ∀ {owner attr}, (attached.lookup (owner, attr)).isSome → ∃ a, r.store.HasCell owner attr (.ok a)
  attr : ∀ cursor, r.attr = some cursor → ∃ a, r.store.HasCell cursor.owner cursor.name (.ok a)

theorem tended_start : Tended [] start where
  modulation h := absurd h not_hasCell_start
  cell h := by simp at h
  attr := by simp [start]

theorem Linked.hasCell_step_of_some (h : Linked c r) (hcell : r.store.HasCell owner attr (.ok a)) :
    ∃ b, (r.step c strict line).store.HasCell owner attr (.ok b) := by
  by_cases hwrites : ∃ b, r.written? c strict line = some ((owner, attr), b)
  · obtain ⟨b, hb⟩ := hwrites
    exact ⟨b, h.hasCell_step.2 (.inl ⟨b, hb, rfl⟩)⟩
  · exact ⟨a, h.hasCell_step.2 (.inr ⟨fun b hb => hwrites ⟨b, hb⟩, hcell⟩)⟩

theorem written?_of_attachment? {name : String}
    (h : r.attachment? c line = some ((owner, attr), name)) :
    r.written? c strict line =
      some ((owner, attr), (r.store.read owner attr).withModulation (some (.named name))) := by
  rw [written?, assignment?_of_attachment? h, h]
  rfl

theorem Tended.modulation_read (h : Tended attached r) (hlinked : Linked c r)
    (hknown : r.store.Knows owner) :
    (r.store.read owner attr).modulation = (attached.lookup (owner, attr)).map .named := by
  obtain hthere | hempty := hlinked.kept.readable.hasCell_or_empty hlinked.housed.coherent hknown
  · exact h.modulation hthere
  · rw [hempty]
    cases hlookup : attached.lookup (owner, attr) with
    | none => rfl
    | some name =>
        obtain ⟨a, ha⟩ := h.cell (by rw [hlookup]; rfl)
        have hmodulation := h.modulation ha
        rw [← ha.read_eq hlinked.housed.coherent, hempty, hlookup] at hmodulation
        cases hmodulation

theorem Tended.step (h : Tended attached r) (hlinked : Linked c r) (strict : Bool) (line : List Char) :
    Tended ((r.attachment? c line).toList ++ attached) (r.step c strict line) where
  modulation {owner attr a} hcell := by
    rcases hlinked.hasCell_step.1 hcell with ⟨b, hwrites, heq⟩ | ⟨hother, hbefore⟩
    · obtain rfl := Except.ok.inj heq
      cases hattached : r.attachment? c line with
      | none =>
          -- The line gives a value, and leaves the modulator that there was, if there was one.
          rw [modulation_of_written hwrites hattached, Option.toList_none, List.nil_append]
          exact h.modulation_read hlinked (hlinked.store_of_written hwrites).1
      | some given =>
          obtain ⟨⟨who, attr'⟩, name⟩ := given
          rw [written?_of_attachment? hattached] at hwrites
          cases hwrites
          simp [Attribute.withModulation]
    · rw [h.modulation hbefore]
      cases hattached : r.attachment? c line with
      | none => rfl
      | some given =>
          obtain ⟨⟨who, attr'⟩, name⟩ := given
          have hne : ((owner, attr) == (who, attr')) = false := by
            rw [beq_eq_false_iff_ne]
            intro heq
            cases heq
            exact hother _ (written?_of_attachment? hattached)
          rw [Option.toList_some, List.singleton_append, List.lookup_cons, hne]
  cell {owner attr} hlookup := by
    cases hattached : r.attachment? c line with
    | none =>
        rw [hattached] at hlookup
        obtain ⟨a, ha⟩ := h.cell hlookup
        exact hlinked.hasCell_step_of_some ha
    | some given =>
        obtain ⟨⟨who, attr'⟩, name⟩ := given
        by_cases hsame : (owner, attr) = (who, attr')
        · cases hsame
          exact ⟨_, hlinked.hasCell_step.2 (.inl ⟨_, written?_of_attachment? hattached, rfl⟩)⟩
        · rw [hattached, Option.toList_some, List.singleton_append, List.lookup_cons,
            beq_false_of_ne hsame] at hlookup
          obtain ⟨a, ha⟩ := h.cell hlookup
          exact hlinked.hasCell_step_of_some ha
  attr cursor hcursor := by
    rcases attr_step hcursor with hbefore | ⟨text, hgives⟩
    · obtain ⟨a, ha⟩ := h.attr cursor hbefore
      exact hlinked.hasCell_step_of_some ha
    · have hwrites : ∃ b, r.written? c strict line = some ((cursor.owner, cursor.name), b) := by
        rw [written?, hgives]
        exact ⟨_, rfl⟩
      obtain ⟨b, hb⟩ := hwrites
      exact ⟨b, hlinked.hasCell_step.2 (.inl ⟨b, hb, rfl⟩)⟩

theorem tended_readLines (hkeys : DistinctKeys c) (strict : Bool) (lines : List (List Char)) :
    Tended (attachments c strict start lines) (readLines c strict start lines) := by
  suffices hrun : ∀ r attached, Linked c r → Tended attached r →
      Tended (attachments c strict r lines ++ attached) (readLines c strict r lines) by
    have h := hrun start [] linked_start tended_start
    rwa [List.append_nil] at h
  induction lines with
  | nil =>
      intro r attached _ h
      exact h
  | cons line rest ih =>
      intro r attached hlinked h
      rw [attachments, List.append_assoc]
      exact ih _ _ (hlinked.step hkeys line) (h.step hlinked strict line)

def attributesGiven (c : Catalog) (strict : Bool) (r : Reader) (key : String)
    (lines : List (List Char)) : List String :=
  (assignments c strict r lines).reverse.filterMap fun given => Store.attributeOf? key given.1

theorem lists_step (hlinked : Linked c r) (h : Tended attached r) (strict : Bool) (line : List Char)
    (hlists : r.store.Lists key names) :
    (r.step c strict line).store.Lists key
      (names ++ ((r.assignment? c line).bind fun given => Store.attributeOf? key given.1).toList) := by
  cases hassigned : r.assignment? c line with
  | some given =>
      obtain ⟨⟨who, attr⟩, text⟩ := given
      rw [(hlinked.store_of_assignment strict hassigned).2]
      exact hlists.setCell ..
  | none =>
      rw [Option.bind_none, Option.toList_none, List.append_nil, Store.Lists]
      cases hattached : r.attachment? c line with
      | none => rw [triggerCells_of_not_written (not_written_iff.2 ⟨hassigned, hattached⟩), hlists]
      | some given =>
          obtain ⟨⟨who, attr⟩, name⟩ := given
          obtain ⟨cursor, hcursor, rfl, rfl, -⟩ := step_of_attachment? strict hattached
          obtain ⟨a, ha⟩ := h.attr cursor (attr_ready hcursor)
          rw [(hlinked.store_of_attachment strict hattached).2, Store.keys_setCell_of_hasCell ha, hlists]

theorem lists_readLines (hkeys : DistinctKeys c) (strict : Bool) (key : String)
    (lines : List (List Char)) :
    (readLines c strict start lines).store.Lists key (attributesGiven c strict start key lines) := by
  suffices hrun : ∀ r attached names, Linked c r → Tended attached r → r.store.Lists key names →
      (readLines c strict r lines).store.Lists key (names ++ attributesGiven c strict r key lines) from
    hrun start [] [] linked_start tended_start rfl
  induction lines with
  | nil =>
      intro r attached names _ _ h
      rw [attributesGiven, assignments, List.reverse_nil, List.filterMap_nil, List.append_nil]
      exact h
  | cons line rest ih =>
      intro r attached names hlinked htended h
      have hgiven : attributesGiven c strict r key (line :: rest) =
          ((r.assignment? c line).bind fun given => Store.attributeOf? key given.1).toList ++
            attributesGiven c strict (r.step c strict line) key rest := by
        rw [attributesGiven, assignments, List.reverse_append, List.filterMap_append]
        congr 1
        cases r.assignment? c line with
        | none => rfl
        | some given =>
            rw [Option.toList_some, List.reverse_singleton, Option.bind_some]
            cases hattr : Store.attributeOf? key given.1 <;> simp [hattr]
      rw [hgiven, ← List.append_assoc]
      exact ih _ _ _ (hlinked.step hkeys line) (htended.step hlinked strict line)
        (lists_step hlinked htended strict line h)

theorem keys_conclude (hr : r.store.Legible c) (strict : Bool) (key : String) :
    ((r.conclude c strict).store.triggerCells key).keys = (r.store.triggerCells key).keys := by
  have hthere (target : Owner × String) (htarget : target ∈ targets r.store) :
      ∃ cell, r.store.HasCell target.1 target.2 cell := (mem_targets_of_legible hr).1 htarget
  suffices hall : (r.conclude c strict).store.Legible c ∧
      (∀ target ∈ targets r.store, ∃ cell, (r.conclude c strict).store.HasCell target.1 target.2 cell) ∧
      ((r.conclude c strict).store.triggerCells key).keys = (r.store.triggerCells key).keys from hall.2.2
  refine conclude_induction (p := fun s => s.Legible c ∧
    (∀ target ∈ targets r.store, ∃ cell, s.HasCell target.1 target.2 cell) ∧
      (s.triggerCells key).keys = (r.store.triggerCells key).keys) c strict ⟨hr, hthere, rfl⟩ ?_
  rintro s ⟨who, attr⟩ a htarget ⟨hlegible, hcells, hsame⟩
  obtain ⟨cell, hcell⟩ := hcells _ htarget
  rw [hlegible.readable.write_eq hlegible.coherent hcell.knows]
  refine ⟨hlegible.setCell hcell.knows .., ?_, ?_⟩
  · rintro ⟨who', attr'⟩ htarget'
    by_cases heq : who' = who ∧ attr' = attr
    · obtain ⟨rfl, rfl⟩ := heq
      exact ⟨_, Store.hasCell_setCell hlegible.coherent hcell.knows ..⟩
    · obtain ⟨cell', hcell'⟩ := hcells _ htarget'
      exact ⟨cell', hcell'.setCell_of_ne hlegible.coherent hcell.knows heq⟩
  · rw [Store.keys_setCell_of_hasCell hcell, hsame]

/-- A modulator names a component, with the kind that its name is registered with, and where the catalog
knows the attribute it accepts that kind. -/
inductive Modulates (c : Catalog) (s : Store) (owner : Owner) (attr : String) : ComponentRef → Prop
  | bound (name : String) (info : NameInfo) (x : Component) (hinfo : s.nameInfo? name = some info)
      (hstored : s.component? name = some x) (hkind : x.kind = info.kind)
      (haccepts : ∀ schema, schemaOf c owner attr = some schema → info.kind ∈ schema.acceptsModulation) :
      Modulates c s owner attr (.bound name info.kind)

theorem modulates_of_info (hs : s.Coherent) {name : String} {info : NameInfo}
    (hinfo : s.nameInfo? name = some info) (hvariable : info.isVariable = false)
    (haccepts : ∀ schema, schemaOf c owner attr = some schema → info.kind ∈ schema.acceptsModulation) :
    Modulates c s owner attr (.bound name info.kind) := by
  obtain ⟨x, hx⟩ := (hs.holds_iff name (.componentTable info.home info.kind)).2
    ⟨info, hinfo, by simp [NameInfo.place, hvariable]⟩
  exact .bound name info x hinfo (hs.component?_eq_some hx) (hs.component_fits hx).kind_eq haccepts

theorem modulation_boundAtOnce (schema : AttributeSchema) (word : String) (info : Option NameInfo)
    (modulation : Option ComponentRef) :
    (boundAtOnce strict schema word info modulation).modulation = modulation ∨ modulation = none ∧
      ∃ i, info = some i ∧ i.isVariable = false ∧ i.kind ∈ schema.acceptsModulation ∧
        (boundAtOnce strict schema word info modulation).modulation = some (.bound word i.kind) := by
  cases info with
  | none => exact .inl rfl
  | some info =>
      simp only [boundAtOnce]
      split
      · split <;> exact .inl rfl
      · next hvariable =>
          split
          · split <;> exact .inl rfl
          · split
            · next hmoves =>
                obtain ⟨haccepts, -, hnone⟩ := hmoves
                exact .inr ⟨hnone, info, rfl, by simpa using hvariable, haccepts, rfl⟩
            · exact .inl rfl

theorem modulation_bindValue (hs : s.Coherent) (a : Attribute) :
    (bindValue c strict (owner, attr) a s).attr.modulation = a.modulation ∨ a.modulation = none ∧
      ∃ name kind, (bindValue c strict (owner, attr) a s).attr.modulation = some (.bound name kind) ∧
        Modulates c s owner attr (.bound name kind) := by
  rw [bindValue]
  split
  · next word hword =>
      cases hschema : schemaOf c owner attr with
      | none => exact .inl rfl
      | some schema =>
          simp only [bindWord_attr]
          rcases modulation_boundAtOnce schema word (s.nameInfo? word) a.modulation with
            hsame | ⟨hnone, info, hinfo, hvariable, haccepts, hmoved⟩
          · exact .inl hsame
          · refine .inr ⟨hnone, word, info.kind, hmoved, modulates_of_info hs hinfo hvariable ?_⟩
            intro schema' hschema'
            obtain rfl := Option.some.inj (hschema.symm.trans hschema')
            exact haccepts
  · exact .inl rfl

theorem modulation_boundModulation (hs : s.Coherent) {ref : ComponentRef}
    (h : (boundModulation c (owner, attr) s a).modulation = some ref) :
    a.modulation = some ref ∨
      ∃ name kind, a.modulation = some (.named name) ∧ ref = .bound name kind ∧
        Modulates c s owner attr ref := by
  rw [boundModulation] at h
  split at h
  · next name hname =>
      split at h
      · next kind hkind =>
          obtain ⟨info, hinfo, rfl, hvariable, haccepts⟩ := bindModulator_ok hkind
          obtain rfl := Option.some.inj h
          exact .inr ⟨name, info.kind, hname, rfl, modulates_of_info hs hinfo hvariable haccepts⟩
      · exact .inl h
  · exact .inl h

theorem modulates_boundAttribute (hs : s.Coherent)
    (hwaits : ∀ ref, a.modulation = some ref → ref.isBound = false) {ref : ComponentRef}
    (h : (boundAttribute c strict (owner, attr) s a).modulation = some ref)
    (hbound : ref.isBound = true) : Modulates c s owner attr ref := by
  rcases modulation_boundModulation hs h with hkept | ⟨name, kind, -, -, hmodulates⟩
  · rcases modulation_bindValue hs a with hsame | ⟨-, name, kind, hmoved, hmodulates⟩
    · rw [hwaits ref (hsame.symm.trans hkept)] at hbound
      cases hbound
    · obtain rfl := Option.some.inj (hkept.symm.trans hmoved)
      exact hmodulates
  · exact hmodulates

theorem name_boundAttribute (c : Catalog) (strict : Bool) (owner : Owner) (attr : String)
    (hs : s.Coherent) {name : String} (h : a.modulation = some (.named name)) :
    ∃ ref, (boundAttribute c strict (owner, attr) s a).modulation = some ref ∧
      ref.name = .text name := by
  have hkept : (bindValue c strict (owner, attr) a s).attr.modulation = a.modulation ∨ a.modulation = none :=
    (modulation_bindValue hs a).imp_right And.left
  rcases hkept with hsame | hnone
  · rw [h] at hsame
    rw [boundAttribute, boundModulation, hsame]
    simp only [ComponentRef.named]
    split
    · next kind _ => exact ⟨.bound name kind, rfl, rfl⟩
    · exact ⟨.named name, hsame, rfl⟩
  · rw [h] at hnone
    cases hnone

theorem Tended.modulates (h : Tended attached r) (hr : r.store.Legible c)
    (hcell : (r.conclude c strict).store.HasCell owner attr (.ok a)) {ref : ComponentRef}
    (href : a.modulation = some ref) (hbound : ref.isBound = true) :
    Modulates c (r.conclude c strict).store owner attr ref := by
  obtain ⟨b, hb, heq⟩ := (hasCell_conclude_iff hr).1 hcell
  rw [Except.ok.inj heq, ← boundAttribute_congr (nameInfo?_conclude c strict r)] at href
  refine modulates_boundAttribute (legible_conclude hr).coherent ?_ href hbound
  intro waiting hwaiting
  rw [h.modulation hb, Option.map_eq_some_iff] at hwaiting
  obtain ⟨name, -, rfl⟩ := hwaiting
  rfl

theorem Tended.bound (h : Tended attached r) (hlinked : Linked c r) (hr : r.store.Legible c)
    (hsucceeds : (r.conclude c strict).succeeds = true) {name : String}
    (hlookup : attached.lookup (owner, attr) = some name) :
    ∃ a kind, (r.conclude c strict).store.HasCell owner attr (.ok a) ∧
      a.modulation = some (.bound name kind) := by
  obtain ⟨b, hb⟩ := h.cell (Option.isSome_iff_exists.2 ⟨name, hlookup⟩)
  have hnamed : b.modulation = some (.named name) := by rw [h.modulation hb, hlookup, Option.map_some]
  have hcell : (r.conclude c strict).store.HasCell owner attr
      (.ok (boundAttribute c strict (owner, attr) r.store b)) := (hasCell_conclude_iff hr).2 ⟨b, hb, rfl⟩
  obtain ⟨ref, href, hname⟩ := name_boundAttribute c strict owner attr hr.coherent hnamed
  obtain ⟨a, heq, hsettled⟩ := settled_conclude hlinked hcell
  obtain rfl := Except.ok.inj heq
  rcases hsettled.modulation with hbound | ⟨hfails, -⟩
  · rw [href] at hbound
    cases hbound with
    | bound name' info hinfo haccepts =>
        obtain rfl : name' = name := Datum.text.inj hname
        exact ⟨_, info.kind, hcell, href⟩
  · rw [hsucceeds] at hfails
    cases hfails

end Document.Reader

/-- Where the attributes that a trigger acts by can be read, the actions are blocks, one for each. -/
theorem actionsOf_eq_flatten {P : String → List Action → Prop} {entries : List (String × Cell)}
    (h : ∀ attr cell unit, (attr, cell) ∈ entries → Action.unit? attr = some unit →
      ∃ a, cell = .ok a ∧ P attr (a.actions attr unit)) :
    ∃ blocks, actionsOf entries = .ok blocks.flatten ∧
      List.Forall₂ P ((entries.map Prod.fst).filter fun attr => (Action.unit? attr).isSome) blocks := by
  induction entries with
  | nil => exact ⟨[], rfl, .nil⟩
  | cons entry rest ih =>
      obtain ⟨attr, cell⟩ := entry
      obtain ⟨blocks, hblocks, hall⟩ := ih fun attr' cell' unit hmem =>
        h attr' cell' unit (List.mem_cons_of_mem _ hmem)
      rw [actionsOf]
      cases hunit : Action.unit? attr with
      | none => exact ⟨blocks, hblocks, by simpa [hunit] using hall⟩
      | some unit =>
          obtain ⟨a, rfl, ha⟩ := h attr cell unit List.mem_cons_self hunit
          refine ⟨a.actions attr unit :: blocks, ?_, ?_⟩
          · simp only [Cell.actions, hblocks]
            rfl
          · simpa [hunit] using ⟨ha, hall⟩

theorem mem_actionsOf {entries : List (String × Cell)} {actions : List Action}
    (h : actionsOf entries = .ok actions) {attr unit : String} {a : Attribute} {action : Action}
    (hmem : (attr, .ok a) ∈ entries) (hunit : Action.unit? attr = some unit)
    (haction : action ∈ a.actions attr unit) : action ∈ actions := by
  induction entries generalizing actions with
  | nil => cases hmem
  | cons entry rest ih =>
      obtain ⟨attr', cell⟩ := entry
      rw [actionsOf] at h
      cases hunit' : Action.unit? attr' with
      | none =>
          rw [hunit'] at h
          rcases List.mem_cons.1 hmem with heq | hmem
          · obtain ⟨rfl, -⟩ := Prod.mk.inj heq
            rw [hunit] at hunit'
            cases hunit'
          · exact ih h hmem
      | some unit' =>
          rw [hunit'] at h
          simp only at h
          cases hcell : cell.actions attr' unit' with
          | error e =>
              rw [hcell] at h
              cases h
          | ok block =>
              cases hrest : actionsOf rest with
              | error e =>
                  rw [hcell, hrest] at h
                  cases h
              | ok others =>
                  rw [hcell, hrest] at h
                  obtain rfl : block ++ others = actions := Except.ok.inj h
                  rcases List.mem_cons.1 hmem with heq | hmem
                  · obtain ⟨rfl, rfl⟩ := Prod.mk.inj heq
                    obtain rfl := Option.some.inj (hunit.symm.trans hunit')
                    obtain rfl := Except.ok.inj hcell
                    exact List.mem_append_left _ haction
                  · exact List.mem_append_right _ (ih hrest hmem)

namespace Document

open Text

variable {c : Catalog}

/-- The actions that follow from an attribute of a trigger: one for its value, where it has one, and right
after it one for its modulator, where that is bound. No value is a word that was left open. -/
inductive Acts (c : Catalog) (s : Store) (key attr : String) : List Action → Prop
  | of (kind unit : String) (a : Attribute) (hunit : Action.unit? attr = some unit)
      (hcell : s.HasCell (.trigger key kind) attr (.ok a))
      (hvalue : ∀ word, a.value ≠ some (.unresolved word))
      (hmodulator : ∀ ref, a.modulation = some ref → ref.isBound = true →
        Reader.Modulates c s (.trigger key kind) attr ref) :
      Acts c s key attr (a.value.toList.map (.setValue attr · unit) ++
        (a.modulation.filter (·.isBound)).toList.map (.applyModulation attr ·))

theorem acts_of_settled {r : Reader} {key kind attr unit : String} {a : Attribute}
    (hunit : Action.unit? attr = some unit) (hcell : r.store.HasCell (.trigger key kind) attr (.ok a))
    (hsettled : Reader.Settled c r (.trigger key kind) attr a)
    (hmodulator : ∀ ref, a.modulation = some ref → ref.isBound = true →
      Reader.Modulates c r.store (.trigger key kind) attr ref) :
    Acts c r.store key attr (a.actions attr unit) := by
  have hvalue (word : Datum) : a.value ≠ some (.unresolved word) := by
    intro hword
    have hbound := hsettled.value
    rw [hword] at hbound
    cases hbound
  have hacts := Acts.of kind unit a hunit hcell hvalue hmodulator
  rwa [← Option.toList_map, ← Option.toList_map] at hacts

/-- After a document has been read, a trigger acts by those of its attributes that act on a parameter, in
the order of the first lines for them, and what each comes to stands together. In a document without
errors every modulator that a line attaches to such an attribute, if no later line replaces it, is among
the actions. A trigger that no line opened does nothing. -/
theorem actions_of_document (hkeys : DistinctKeys c) (strict : Bool) (text key : String) :
    (∃ blocks, (read c strict text).store.actions key = .ok blocks.flatten ∧
      List.Forall₂ (Acts c (read c strict text).store key)
        ((Reader.attributesGiven c strict .start key (Text.lines text.toList)).eraseDups.filter
          fun attr => (Action.unit? attr).isSome) blocks ∧
      ((read c strict text).succeeds = true → ∀ kind attr name, (Action.unit? attr).isSome →
        (Reader.attachments c strict .start (Text.lines text.toList)).lookup
          (.trigger key kind, attr) = some name →
        ∃ modulatorKind, .applyModulation attr (.bound name modulatorKind) ∈ blocks.flatten)) ∧
    ((read c strict text).store.trigger? key = none →
      (read c strict text).store.actions key = .ok []) := by
  have hlinked := Reader.linked_readLines hkeys strict (Text.lines text.toList)
  have htended := Reader.tended_readLines hkeys strict (Text.lines text.toList)
  have hlegible := (Reader.founded_readLines c strict (Text.lines text.toList)).legible
  constructor
  · have hlists : ((read c strict text).store.triggerCells key).entries.map Prod.fst =
        (Reader.attributesGiven c strict .start key (Text.lines text.toList)).eraseDups :=
      (Reader.keys_conclude hlegible strict key).trans (Reader.lists_readLines hkeys strict key _)
    have hacts (attr : String) (cell : Cell) (unit : String)
        (hmem : (attr, cell) ∈ ((read c strict text).store.triggerCells key).entries)
        (hunit : Action.unit? attr = some unit) :
        ∃ a, cell = .ok a ∧ Acts c (read c strict text).store key attr (a.actions attr unit) := by
      obtain ⟨kind, hcell⟩ := Store.mem_entries_triggerCells.1 hmem
      obtain ⟨a, rfl, hsettled⟩ := Reader.settled_conclude hlinked hcell
      exact ⟨a, rfl, acts_of_settled hunit hcell hsettled fun ref => htended.modulates hlegible hcell⟩
    obtain ⟨blocks, hactions, hblocks⟩ := actionsOf_eq_flatten hacts
    rw [hlists] at hblocks
    refine ⟨blocks, hactions, hblocks, ?_⟩
    intro hsucceeds kind attr name hunit hlookup
    obtain ⟨unit, hunit⟩ := Option.isSome_iff_exists.1 hunit
    obtain ⟨a, modulatorKind, hcell, hmodulation⟩ := htended.bound hlinked hlegible hsucceeds hlookup
    refine ⟨modulatorKind, mem_actionsOf hactions (Store.mem_entries_triggerCells.2 ⟨kind, hcell⟩) hunit ?_⟩
    simp [Attribute.actions, hmodulation, ComponentRef.bound, ComponentRef.isBound, Datum.isNull]
  · intro hnone
    rw [Store.actions, Store.triggerCells, hnone]
    rfl

def reopenedText : String :=
  "lfo wobble\nnote c4\n  volume 5\n  pitch 3\n    modulation wobble\nnote c4\n  pitch 7\n" ++
    "    modulation sway\nlfo sway"

theorem actions_of_reopenedText :
    DistinctKeys patchCatalog ∧ (read patchCatalog false reopenedText).succeeds = true ∧
      Reader.attributesGiven patchCatalog false .start "note_c4" (Text.lines reopenedText.toList) =
        ["volume", "pitch", "pitch"] ∧
      ∃ volume pitch kind,
        (read patchCatalog false reopenedText).store.actions "note_c4" = .ok (volume ++ pitch) ∧
        Acts patchCatalog (read patchCatalog false reopenedText).store "note_c4" "volume" volume ∧
        Acts patchCatalog (read patchCatalog false reopenedText).store "note_c4" "pitch" pitch ∧
        .applyModulation "pitch" (.bound "sway" kind) ∈ volume ++ pitch := by
  have hsucceeds : (read patchCatalog false reopenedText).succeeds = true := by decide +kernel
  have hgiven : Reader.attributesGiven patchCatalog false .start "note_c4"
      (Text.lines reopenedText.toList) = ["volume", "pitch", "pitch"] := by decide +kernel
  have hlookup : (Reader.attachments patchCatalog false .start (Text.lines reopenedText.toList)).lookup
      (.trigger "note_c4" "note", "pitch") = some "sway" := by decide +kernel
  obtain ⟨⟨blocks, hactions, hblocks, hbound⟩, -⟩ :=
    actions_of_document distinctKeys_patchCatalog false reopenedText "note_c4"
  obtain ⟨kind, hmem⟩ := hbound hsucceeds "note" "pitch" "sway" (by decide) hlookup
  have hnames : (["volume", "pitch", "pitch"].eraseDups.filter fun attr =>
      (Action.unit? attr).isSome) = ["volume", "pitch"] := by decide
  rw [hgiven, hnames] at hblocks
  obtain ⟨volume, rest, hvolume, hrest, rfl⟩ := List.forall₂_cons_left_iff.1 hblocks
  obtain ⟨pitch, last, hpitch, hlast, rfl⟩ := List.forall₂_cons_left_iff.1 hrest
  obtain rfl := List.forall₂_nil_left_iff.1 hlast
  simp only [List.flatten_cons, List.flatten_nil, List.append_nil] at hactions hmem
  exact ⟨distinctKeys_patchCatalog, hsucceeds, hgiven, volume, pitch, kind, hactions, hvolume, hpitch, hmem⟩

end Document

end Instrument
