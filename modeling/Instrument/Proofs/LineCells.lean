import Instrument.Proofs.Recorded

namespace Instrument.Document

def Event.opensBody : Event → Bool
  | plain _ => false
  | _ => true

namespace Reader

open Text

variable {c : Catalog} {strict : Bool} {r : Reader} {line : List Char} {owner : Owner} {attr : String}
  {a : Attribute} {cell : Cell} {kind : LineKind} {t : Store}

theorem store_ready (line : List Char) (r : Reader) : (r.ready line).store = r.store := by
  rw [ready, store_settle]

def written? (c : Catalog) (strict : Bool) (line : List Char) (r : Reader) :
    Option ((Owner × String) × Attribute) :=
  match r.assignment? c line with
  | some ((owner, attr), text) => some ((owner, attr),
      (assign strict owner attr (schemaOf c owner attr) (r.store.read owner attr) text
        (r.store.nameInfo? (String.ofList text))).attr)
  | none => (r.attachment? c line).map fun ((owner, attr), name) =>
      ((owner, attr), (r.store.read owner attr).withModulation (some (.named name)))

theorem Linked.store_of_assignment (h : Linked c r) (strict : Bool) {text : List Char}
    (hgives : r.assignment? c line = some ((owner, attr), text)) :
    r.store.Knows owner ∧ (r.step c strict line).store = r.store.setCell owner attr (.ok
      (assign strict owner attr (schemaOf c owner attr) (r.store.read owner attr) text
        (r.store.nameInfo? (String.ofList text))).attr) := by
  obtain ⟨howner, hstep⟩ := step_of_assignment? strict hgives
  have hnow := h.ready line
  have hstore : (r.step c strict line).store = (r.ready line).store.setCell owner attr (.ok
      (assign strict owner attr (schemaOf c owner attr) ((r.ready line).store.read owner attr) text
        ((r.ready line).store.nameInfo? (String.ofList text))).attr) := by
    rw [hstep, ← hnow.write_eq howner]
    rfl
  have hknown := hnow.allOpen.owner howner
  rw [store_ready] at hstore hknown
  exact ⟨hknown, hstore⟩

theorem Linked.store_of_attachment (h : Linked c r) (strict : Bool) {name : String}
    (hgives : r.attachment? c line = some ((owner, attr), name)) :
    r.store.Knows owner ∧ (r.step c strict line).store = r.store.setCell owner attr (.ok
      ((r.store.read owner attr).withModulation (some (.named name)))) := by
  obtain ⟨cursor, hcursor, rfl, rfl, hstep⟩ := step_of_attachment? strict hgives
  have hnow := h.ready line
  have hknown := hnow.attr_known cursor hcursor
  have hstore : (r.step c strict line).store = (r.ready line).store.setCell cursor.owner cursor.name (.ok
      (((r.ready line).store.read cursor.owner cursor.name).withModulation (some (.named name)))) := by
    rw [hstep, ← hnow.kept.readable.write_eq hnow.housed.coherent hknown]
    simp only [attach, hcursor]
  rw [store_ready] at hstore hknown
  exact ⟨hknown, hstore⟩

theorem Linked.store_of_written (h : Linked c r)
    (hwrites : r.written? c strict line = some ((owner, attr), a)) :
    r.store.Knows owner ∧ (r.step c strict line).store = r.store.setCell owner attr (.ok a) := by
  rw [written?] at hwrites
  cases hassigned : r.assignment? c line with
  | some given =>
      obtain ⟨⟨who, attr'⟩, text⟩ := given
      rw [hassigned] at hwrites
      cases hwrites
      exact h.store_of_assignment strict hassigned
  | none =>
      rw [hassigned] at hwrites
      obtain ⟨⟨⟨who, attr'⟩, name⟩, hattached, heq⟩ := Option.map_eq_some_iff.1 hwrites
      cases heq
      exact h.store_of_attachment strict hattached

theorem not_written_iff : r.written? c strict line = none ↔
    r.assignment? c line = none ∧ r.attachment? c line = none := by
  rw [written?]
  cases r.assignment? c line with
  | none => simp
  | some given => simp

theorem Linked.hasCell_of_effect (h : Linked c r) (heffect : Effect c strict r kind t)
    (hassigns : kind ≠ .assignment) (hmodulates : kind ≠ .modulation) :
    t.HasCell owner attr cell ↔ r.store.HasCell owner attr cell := by
  have hknows : ∀ {who}, r.store.Knows who → t.Knows who := (h.effect heffect).2
  have hconfined {home : Option String} (hgrows : r.store.Grows t)
      (hconfined : Store.Confined home none r.store t) :
      t.HasCell owner attr cell ↔ r.store.HasCell owner attr cell :=
    ⟨hgrows.hasCell, fun hcell => hcell.of_confined hconfined (hknows hcell.knows)⟩
  cases heffect with
  | unchanged => exact Iff.rfl
  | declared name value range =>
      exact hconfined (Store.grows_addVariable ..) (Store.confined_addVariable ..)
  | overridden frame name value hscope =>
      obtain ⟨x, hx, -⟩ := h.allOpen.scope hscope
      exact hconfined (Store.grows_setOverride hx name value) (Store.confined_setOverride ..)
  | entered frame hheader =>
      have hsame : Store.Confined none none r.store (r.store.declareTrigger frame.key frame.kind) :=
        Store.confined_declareTrigger ..
      exact ⟨Store.HasCell.of_declareTrigger, fun hcell => hcell.of_confined hsame (hknows hcell.knows)⟩
  | added kind name hkind =>
      refine hconfined (Store.grows_addComponent ?_ kind name)
        (Store.confined_addComponent h.housed.coherent kind name)
      intro key hhome
      rw [home, Option.map_eq_some_iff] at hhome
      obtain ⟨frame, hscope, rfl⟩ := hhome
      obtain ⟨x, hx, -⟩ := h.allOpen.scope hscope
      exact ⟨x, hx⟩
  | assigned who attr' text howner => exact absurd rfl hassigns
  | modulated cursor name hattr => exact absurd rfl hmodulates

theorem effect_of_not_written (hwrites : r.written? c strict line = none) :
    (r.step c strict line).store = r.store ∨ ∃ kind, kind ≠ .assignment ∧ kind ≠ .modulation ∧
      Effect c strict (r.ready line) kind (r.step c strict line).store := by
  obtain ⟨hassigned, hattached⟩ := not_written_iff.1 hwrites
  cases hpasses : r.passes line with
  | true =>
      rw [step_of_passes hpasses]
      exact .inl rfl
  | false =>
      have hcomplain {complaint : Complaint}
          (hstep : r.step c strict line = (r.ready line).complain complaint) :
          (r.step c strict line).store = r.store := by
        rw [hstep]
        exact store_ready line r
      cases hkind : r.kindOf c line with
      | assignment =>
          obtain ⟨complaint, -, hstep⟩ := step_of_no_assignment strict hpasses hkind hassigned
          exact .inl (hcomplain hstep)
      | modulation =>
          obtain ⟨complaint, -, hstep⟩ := step_of_no_attachment strict hpasses hkind hattached
          exact .inl (hcomplain hstep)
      | declaration | trigger | component =>
          exact .inr ⟨_, by decide, by decide, hkind ▸ effect_of_not_passes strict hpasses⟩

theorem Linked.hasCell_of_not_written (h : Linked c r) (hwrites : r.written? c strict line = none) :
    (r.step c strict line).store.HasCell owner attr cell ↔ r.store.HasCell owner attr cell := by
  rcases effect_of_not_written hwrites with hsame | ⟨kind, hassigns, hmodulates, heffect⟩
  · rw [hsame]
  · rw [(h.ready line).hasCell_of_effect heffect hassigns hmodulates, store_ready]

theorem Linked.hasCell_step (h : Linked c r) :
    (r.step c strict line).store.HasCell owner attr cell ↔
      (∃ a, r.written? c strict line = some ((owner, attr), a) ∧ cell = .ok a) ∨
      ((∀ a, r.written? c strict line ≠ some ((owner, attr), a)) ∧
        r.store.HasCell owner attr cell) := by
  cases hwrites : r.written? c strict line with
  | none => simp [h.hasCell_of_not_written hwrites]
  | some given =>
      obtain ⟨⟨who, attr'⟩, a⟩ := given
      obtain ⟨hknown, hstore⟩ := h.store_of_written hwrites
      rw [hstore, Store.hasCell_setCell_iff h.housed.coherent hknown]
      simp only [ne_eq, Option.some.injEq, Prod.mk.injEq]
      refine or_congr ?_ (and_congr_left fun _ => ?_)
      · constructor
        · rintro ⟨rfl, rfl, rfl⟩
          exact ⟨a, ⟨⟨rfl, rfl⟩, rfl⟩, rfl⟩
        · rintro ⟨b, ⟨⟨rfl, rfl⟩, rfl⟩, rfl⟩
          exact ⟨rfl, rfl, rfl⟩
      · constructor
        · rintro hne b ⟨⟨rfl, rfl⟩, -⟩
          exact hne ⟨rfl, rfl⟩
        · rintro hne ⟨rfl, rfl⟩
          exact hne a ⟨⟨rfl, rfl⟩, rfl⟩

def opensBody (c : Catalog) (line : List Char) (r : Reader) : Bool :=
  (r.event? c line).any (·.opensBody)

theorem opensBody_of_not_passes (hpasses : r.passes line = false) :
    r.opensBody c line = match r.kindOf c line with
      | .trigger => (headerFrame? c (indentOf line) (strip line)).isSome
      | .component => ((r.ready line).openComponent c (indentOf line) (strip line)).skip.isNone
      | _ => false := by
  rw [opensBody, event?, if_neg (ne_true_of_eq_false hpasses), Option.any_some, eventOf, kindOf]
  cases (r.ready line).classify c (indentOf line) (String.ofList (firstWord (strip line))) with
  | trigger =>
      simp only
      cases headerFrame? c (indentOf line) (strip line) <;> rfl
  | component =>
      simp only
      cases ((r.ready line).openComponent c (indentOf line) (strip line)).skip <;> rfl
  | declaration | modulation | assignment => rfl

theorem attr_ready {cursor : AttributeCursor} (h : (r.ready line).attr = some cursor) :
    r.attr = some cursor := by
  rw [ready, settle_eq] at h
  simp only at h
  split at h
  · cases h
  · exact (Option.filter_eq_some_iff.1 h).1

/-- What is open after a line that gives no attribute a value. -/
theorem attr_step_of_no_assignment (strict : Bool) (hpasses : r.passes line = false)
    (hnone : r.assignment? c line = none) :
    (r.step c strict line).attr = if r.opensBody c line then none else (r.ready line).attr := by
  cases hkind : r.kindOf c line with
  | assignment =>
      obtain ⟨complaint, -, hstep⟩ := step_of_no_assignment strict hpasses hkind hnone
      rw [hstep, opensBody_of_not_passes hpasses, hkind]
      rfl
  | declaration =>
      rw [step_of_kindOf hpasses hkind, opensBody_of_not_passes hpasses, hkind]
      exact (sameOpen_declare _).attr_eq
  | modulation =>
      rw [step_of_kindOf hpasses hkind, opensBody_of_not_passes hpasses, hkind]
      exact (sameOpen_modulate _).attr_eq
  | trigger =>
      rw [step_of_kindOf hpasses hkind, opensBody_of_not_passes hpasses, hkind, act]
      obtain ⟨hrefused, complaint, hread⟩ | ⟨frame, told, hframe, -, hread⟩ :=
        openTrigger_cases c (indentOf line) (strip line) (r.ready line)
      · simp only [hread, hrefused]
        rfl
      · simp only [hread, hframe]
        rfl
  | component =>
      rw [step_of_kindOf hpasses hkind, opensBody_of_not_passes hpasses, hkind, act]
      obtain ⟨-, hread⟩ | ⟨told, complaint, htold, hread⟩ :=
        openComponent_cases c (indentOf line) (strip line) (r.ready line)
      · have hskip : (r.ready line).skip = none := by rw [ready, settle_eq]
        simp only [hread, follow, hskip]
        rfl
      · simp only [hread]
        rcases htold with rfl | ⟨outcome, -, rfl⟩ <;> rfl

theorem attr_step {cursor : AttributeCursor} (h : (r.step c strict line).attr = some cursor) :
    r.attr = some cursor ∨ ∃ text, r.assignment? c line = some ((cursor.owner, cursor.name), text) := by
  cases hpasses : r.passes line with
  | true =>
      rw [step_of_passes hpasses] at h
      exact .inl h
  | false =>
      cases hassigned : r.assignment? c line with
      | some given =>
          obtain ⟨⟨who, attr'⟩, text⟩ := given
          obtain ⟨-, hstep⟩ := step_of_assignment? strict hassigned
          rw [hstep, (sameOpen_writeLine ..).attr_eq] at h
          cases h
          exact .inr ⟨text, rfl⟩
      | none =>
          rw [attr_step_of_no_assignment strict hpasses hassigned] at h
          split at h
          · cases h
          · exact .inl (attr_ready h)

/-- A line is written down for every attribute that is there, and one for every modulator. -/
structure Noted (r : Reader) : Prop where
  attr : ∀ cursor, r.attr = some cursor → (r.attributeLines.lookup (cursor.owner, cursor.name)).isSome
  cell : ∀ {owner attr a}, r.store.HasCell owner attr (.ok a) →
    (r.attributeLines.lookup (owner, attr)).isSome
  modulation : ∀ {owner attr a}, r.store.HasCell owner attr (.ok a) → a.modulation.isSome →
    (r.modulationLines.lookup (owner, attr)).isSome

theorem not_hasCell_start : ¬start.store.HasCell owner attr cell := by
  intro hcell
  cases owner with
  | component name kind =>
      obtain ⟨scope, x, hx, -⟩ := hcell
      cases scope <;>
        simp [start, Store.componentAt?, Store.componentsAt, Store.empty, Store.trigger?] at hx
  | trigger key kind =>
      obtain ⟨x, hx, -⟩ := hcell
      simp [start, Store.empty, Store.trigger?] at hx

theorem noted_start : Noted start where
  attr := by simp [start]
  cell h := absurd h not_hasCell_start
  modulation h := absurd h not_hasCell_start

theorem lookup_append_isSome {lines more : AttributeLines} {target : Owner × String}
    (h : (lines.lookup target).isSome) : ((more ++ lines).lookup target).isSome := by
  rw [List.lookup_append]
  cases more.lookup target with
  | none => exact h
  | some line => rfl

theorem modulation_of_written (h : r.written? c strict line = some ((owner, attr), a))
    (hattached : r.attachment? c line = none) :
    a.modulation = (r.store.read owner attr).modulation := by
  rw [written?] at h
  cases hassigned : r.assignment? c line with
  | none =>
      rw [hassigned, hattached] at h
      cases h
  | some given =>
      obtain ⟨⟨who, attr'⟩, text⟩ := given
      rw [hassigned] at h
      cases h
      exact (assign_quiet ..).1

theorem Linked.hasCell_of_modulation (h : Linked c r) (hknown : r.store.Knows owner)
    (hmodulation : (r.store.read owner attr).modulation.isSome) :
    r.store.HasCell owner attr (.ok (r.store.read owner attr)) := by
  refine (h.kept.readable.hasCell_or_empty h.housed.coherent hknown).resolve_right fun hempty => ?_
  rw [hempty] at hmodulation
  cases hmodulation

theorem Noted.step (h : Noted r) (hlinked : Linked c r) (strict : Bool) (line : List Char) :
    Noted (r.step c strict line) := by
  have hrecords := @records_step c r strict line
  have hattributes := hrecords.attributeLines_eq
  have hmodulations := hrecords.modulationLines_eq
  have hassigned {owner attr text} (hgives : r.assignment? c line = some ((owner, attr), text)) :
      ((r.step c strict line).attributeLines.lookup (owner, attr)).isSome := by
    rw [hattributes, hgives]
    simp
  have hold {target} (hlookup : (r.attributeLines.lookup target).isSome) :
      ((r.step c strict line).attributeLines.lookup target).isSome := by
    rw [hattributes]
    exact lookup_append_isSome hlookup
  have hold' {target} (hlookup : (r.modulationLines.lookup target).isSome) :
      ((r.step c strict line).modulationLines.lookup target).isSome := by
    rw [hmodulations]
    exact lookup_append_isSome hlookup
  refine ⟨?_, ?_, ?_⟩
  · intro cursor hcursor
    rcases attr_step hcursor with hbefore | ⟨text, hgives⟩
    · exact hold (h.attr cursor hbefore)
    · exact hassigned hgives
  · intro owner attr a hcell
    rcases hlinked.hasCell_step.1 hcell with ⟨b, hwrites, -⟩ | ⟨-, hbefore⟩
    · rw [written?] at hwrites
      cases hgives : r.assignment? c line with
      | some given =>
          obtain ⟨⟨who, attr'⟩, text⟩ := given
          rw [hgives] at hwrites
          cases hwrites
          exact hassigned hgives
      | none =>
          rw [hgives] at hwrites
          obtain ⟨⟨⟨who, attr'⟩, name⟩, hattached, heq⟩ := Option.map_eq_some_iff.1 hwrites
          cases heq
          obtain ⟨cursor, hcursor, rfl, rfl, -⟩ := step_of_attachment? strict hattached
          exact hold (h.attr cursor (attr_ready hcursor))
    · exact hold (h.cell hbefore)
  · intro owner attr a hcell hmodulated
    rcases hlinked.hasCell_step.1 hcell with ⟨b, hwrites, heq⟩ | ⟨-, hbefore⟩
    · obtain rfl := Except.ok.inj heq
      cases hattached : r.attachment? c line with
      | none =>
          have hknown := (hlinked.store_of_written hwrites).1
          rw [modulation_of_written hwrites hattached] at hmodulated
          exact hold' (h.modulation (hlinked.hasCell_of_modulation hknown hmodulated) hmodulated)
      | some given =>
          have hgives := assignment?_of_attachment? hattached
          rw [written?, hgives, hattached] at hwrites
          cases hwrites
          rw [hmodulations, hattached]
          simp
    · exact hold' (h.modulation hbefore hmodulated)

theorem noted_readLines (hkeys : DistinctKeys c) (strict : Bool) (lines : List (List Char)) :
    Noted (readLines c strict start lines) := by
  suffices hrun : ∀ r, Linked c r → Noted r → Noted (readLines c strict r lines) from
    hrun start linked_start noted_start
  induction lines with
  | nil =>
      intro r _ h
      exact h
  | cons line rest ih =>
      intro r hlinked h
      exact ih _ (hlinked.step hkeys line) (h.step hlinked strict line)

end Reader

end Instrument.Document
