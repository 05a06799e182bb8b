import Instrument.Proofs.Cursors
import Instrument.Proofs.References

namespace Instrument.Document

variable {c : Catalog} {s t : Store} {owner : Owner} {attr : String}

/-- No two trigger headers of different kind or name have one key. -/
def DistinctKeys (c : Catalog) : Prop :=
  ∀ {kind₁ name₁ kind₂ name₂}, TakesHeader c kind₁ name₁ → TakesHeader c kind₂ name₂ →
    makeScopeKey kind₁ name₁ = makeScopeKey kind₂ name₂ → kind₁ = kind₂ ∧ name₁ = name₂

theorem triggerKindOfKey_makeScopeKey {kind : String} (h : '_' ∉ kind.toList) (name : Option String) :
    triggerKindOfKey (makeScopeKey kind name) = kind := by
  have hkind : ∀ x ∈ kind.toList, (x != '_') = true := by
    intro x hx
    rw [bne_iff_ne]
    rintro rfl
    exact h hx
  have hbare : triggerKindOfKey kind = kind := by
    rw [triggerKindOfKey]
    have hall : (kind.toList ++ []).takeWhile (· != '_') = kind.toList ++ [].takeWhile (· != '_') :=
      List.takeWhile_append_of_pos hkind
    rw [List.append_nil, List.takeWhile_nil, List.append_nil] at hall
    rw [hall, String.ofList_toList]
  cases name with
  | none => exact hbare
  | some name =>
      simp only [makeScopeKey]
      split
      · exact hbare
      · rw [triggerKindOfKey, String.toList_append, String.toList_append, List.append_assoc,
          List.takeWhile_append_of_pos hkind]
        simp

theorem distinctKeys_of_no_underscore (h : ∀ kind, c.isTriggerKind kind = true → '_' ∉ kind.toList) :
    DistinctKeys c := by
  intro kind₁ name₁ kind₂ name₂ h₁ h₂ hkey
  have hkind : kind₁ = kind₂ := by
    rw [← triggerKindOfKey_makeScopeKey (h kind₁ (Reader.isTriggerKind_of_takesHeader h₁)) name₁, hkey,
      triggerKindOfKey_makeScopeKey (h kind₂ (Reader.isTriggerKind_of_takesHeader h₂))]
  subst hkind
  refine ⟨rfl, ?_⟩
  obtain ⟨schema, hschema, hname₁⟩ := h₁
  obtain ⟨schema', hschema', hname₂⟩ := h₂
  obtain rfl : schema = schema' := Option.some.inj (hschema.symm.trans hschema')
  have hne {text : List Char} (htext : text ≠ []) : String.ofList text ≠ "" := by
    intro hempty
    have hlist := congrArg String.toList hempty
    rw [String.toList_ofList] at hlist
    exact htext hlist
  cases name₁ with
  | none =>
      cases name₂ with
      | none => rfl
      | some name =>
          obtain ⟨hneeds, -⟩ := hname₂
          rw [show schema.requiresName.isYes = false from hname₁] at hneeds
          cases hneeds
  | some name =>
      cases name₂ with
      | none =>
          obtain ⟨hneeds, -⟩ := hname₁
          rw [show schema.requiresName.isYes = false from hname₂] at hneeds
          cases hneeds
      | some name' =>
          obtain ⟨-, text, rfl, htext, -⟩ := hname₁
          obtain ⟨-, text', rfl, htext', -⟩ := hname₂
          simp only [makeScopeKey, if_neg (hne htext), if_neg (hne htext')] at hkey
          have hlist := congrArg String.toList hkey
          simp only [String.toList_append, List.append_cancel_left_eq] at hlist
          rw [String.toList_inj.1 hlist]

/-- A store as the lines of a document leave it. -/
structure Kept (c : Catalog) (s : Store) : Prop where
  coherent : s.Coherent
  cells : ∀ {owner attr cell}, s.HasCell owner attr cell → ∃ a, cell = .ok a ∧ Pending c s owner attr a
  headed : ∀ {key x}, s.trigger? key = some x →
    x.key = key ∧ ∃ name, TakesHeader c x.kind name ∧ key = makeScopeKey x.kind name

theorem kept_empty : Kept c .empty where
  coherent := Store.coherent_empty
  cells {owner attr cell} h := by
    cases owner with
    | component name kind =>
        obtain ⟨scope, x, hx, -⟩ := h
        cases scope <;> simp [Store.componentAt?, Store.componentsAt, Store.empty, Store.trigger?] at hx
    | trigger key kind =>
        obtain ⟨x, hx, -⟩ := h
        simp [Store.empty, Store.trigger?] at hx
  headed h := by simp [Store.empty, Store.trigger?] at h

theorem Kept.readable (h : Kept c s) : s.Readable := by
  intro owner attr cell hcell
  obtain ⟨a, ha, -⟩ := h.cells hcell
  exact ⟨a, ha⟩

theorem Kept.pending_read (h : Kept c s) (hknown : s.Knows owner) :
    Pending c s owner attr (s.read owner attr) := by
  obtain hcell | hempty := h.readable.hasCell_or_empty h.coherent hknown
  · obtain ⟨a, heq, hpending⟩ := h.cells hcell
    rwa [Except.ok.inj heq]
  · rw [hempty]
    exact pending_empty

theorem Kept.grows (h : Kept c s) (hcoherent : t.Coherent) (hgrows : s.Grows t) : Kept c t where
  coherent := hcoherent
  cells hcell := by
    obtain ⟨a, ha, hpending⟩ := h.cells (hgrows.hasCell hcell)
    exact ⟨a, ha, hpending.mono hgrows.nameInfo?⟩
  headed hx := by
    obtain ⟨y, hy, hkey, hkind⟩ := hgrows.trigger? hx
    rw [← hkey, ← hkind]
    exact h.headed hy

theorem kind_freshTrigger (kind : String) (name : Option String) :
    (Store.freshTrigger (makeScopeKey kind name) kind).kind = kind := by
  simp only [Store.freshTrigger]
  split
  · next h =>
      subst h
      cases name with
      | none => rfl
      | some name =>
          rw [makeScopeKey]
          split <;> simp [triggerKindOfKey]
  · rfl

theorem Kept.declareTrigger (h : Kept c s) {kind : String} {name : Option String}
    (hheader : TakesHeader c kind name) : Kept c (s.declareTrigger (makeScopeKey kind name) kind) where
  coherent := (s.keeps_declareTrigger ..).coherent h.coherent
  cells hcell := by
    have hnames {other info} (hinfo : s.nameInfo? other = some info) :
        (s.declareTrigger (makeScopeKey kind name) kind).nameInfo? other = some info := hinfo
    obtain ⟨a, ha, hpending⟩ := h.cells hcell.of_declareTrigger
    exact ⟨a, ha, hpending.mono hnames⟩
  headed {key x} hx := by
    rw [Store.trigger?_declareTrigger] at hx
    split at hx
    · next heq =>
        subst heq
        rw [Store.triggerOrFresh] at hx
        cases hfound : s.trigger? (makeScopeKey kind name) with
        | none =>
            rw [hfound, Option.getD_none] at hx
            rw [← Option.some.inj hx, kind_freshTrigger]
            exact ⟨rfl, name, hheader, rfl⟩
        | some y =>
            rw [hfound, Option.getD_some] at hx
            rw [← Option.some.inj hx]
            exact h.headed hfound
    · exact h.headed hx

theorem Kept.knows_declareTrigger (h : Kept c s) (hkeys : DistinctKeys c) {kind : String}
    {name : Option String} (hheader : TakesHeader c kind name) :
    (s.declareTrigger (makeScopeKey kind name) kind).Knows (.trigger (makeScopeKey kind name) kind) := by
  refine ⟨s.triggerOrFresh (makeScopeKey kind name) kind, ?_, ?_⟩
  · rw [Store.trigger?_declareTrigger, if_pos rfl]
  · rw [Store.triggerOrFresh]
    cases hfound : s.trigger? (makeScopeKey kind name) with
    | none => exact kind_freshTrigger kind name
    | some x =>
        obtain ⟨-, name', hheader', hkey⟩ := h.headed hfound
        exact (hkeys hheader hheader' hkey).1.symm

theorem Kept.setCell (h : Kept c s) (hknown : s.Knows owner) {a : Attribute}
    (ha : Pending c s owner attr a) : Kept c (s.setCell owner attr (.ok a)) where
  coherent := (s.keeps_setCell ..).coherent h.coherent
  cells {other attr' cell'} hcell := by
    have hnames {name info} (hinfo : s.nameInfo? name = some info) :
        (s.setCell owner attr (.ok a)).nameInfo? name = some info := by
      rw [(s.keeps_setCell ..).nameInfo?_eq, hinfo]
    rcases hcell.of_setCell h.coherent hknown with ⟨rfl, rfl, rfl⟩ | ⟨-, hcell⟩
    · exact ⟨a, rfl, ha.mono hnames⟩
    · obtain ⟨b, hb, hpending⟩ := h.cells hcell
      exact ⟨b, hb, hpending.mono hnames⟩
  headed hx := by
    obtain ⟨y, hy, hkey, hkind⟩ := Store.trigger?_setCell hknown hx
    rw [← hkey, ← hkind]
    exact h.headed hy

theorem Kept.write (h : Kept c s) (hknown : s.Knows owner) {a : Attribute}
    (ha : Pending c s owner attr a) :
    Kept c (s.write owner attr a) ∧ ∀ {other}, s.Knows other → (s.write owner attr a).Knows other := by
  rw [h.readable.write_eq h.coherent hknown]
  exact ⟨h.setCell hknown ha, fun hother => hother.setCell hknown⟩

namespace Reader

variable {strict : Bool} {r r' : Reader}

/-- What a reader holds open is there. -/
structure Linked (c : Catalog) (r : Reader) : Prop where
  housed : Housed r
  kept : Kept c r.store
  frame_known : ∀ frame ∈ r.frames, r.store.Knows (.trigger frame.key frame.kind)
  trigger_known : ∀ frame, r.trigger = some frame → r.store.Knows (.trigger frame.key frame.kind)
  attr_known : ∀ cursor, r.attr = some cursor → r.store.Knows cursor.owner

theorem linked_start : Linked c start where
  housed := housed_start
  kept := kept_empty
  frame_known := by simp [start]
  trigger_known := by simp [start]
  attr_known := by simp [start]

theorem Linked.allOpen (h : Linked c r) : AllOpen r.store.Knows r where
  frame := h.frame_known
  trigger := h.trigger_known
  component cursor hcursor := by
    obtain ⟨x, hx⟩ := h.housed.component_home cursor hcursor
    exact ⟨r.home, x, hx⟩
  attr := h.attr_known

theorem linked_of_allOpen (hhoused : Housed r) (hkept : Kept c r.store)
    (hopen : AllOpen r.store.Knows r) : Linked c r :=
  ⟨hhoused, hkept, hopen.frame, hopen.trigger, hopen.attr⟩

theorem Linked.effect (h : Linked c r) {kind : LineKind} (heffect : Effect c strict r kind t) :
    Kept c t ∧ ∀ {who}, r.store.Knows who → t.Knows who := by
  have hcoherent : t.Coherent := heffect.coherent h.housed.coherent
  have hgrowth (hgrows : r.store.Grows t) : Kept c t ∧ ∀ {who}, r.store.Knows who → t.Knows who :=
    ⟨h.kept.grows hcoherent hgrows, hgrows.knows⟩
  cases heffect with
  | unchanged => exact ⟨h.kept, fun hwho => hwho⟩
  | declared name value range => exact hgrowth (Store.grows_addVariable ..)
  | overridden frame name value hscope =>
      obtain ⟨x, hx, -⟩ := h.allOpen.scope hscope
      exact hgrowth (Store.grows_setOverride hx name value)
  | entered frame hheader =>
      obtain ⟨name, hheader, hkey⟩ := hheader
      rw [hkey]
      exact ⟨h.kept.declareTrigger hheader, fun hwho => hwho.declareTrigger ..⟩
  | added kind name hkind =>
      refine hgrowth (Store.grows_addComponent ?_ kind name)
      intro key hhome
      rw [home, Option.map_eq_some_iff] at hhome
      obtain ⟨frame, hscope, rfl⟩ := hhome
      obtain ⟨x, hx, -⟩ := h.allOpen.scope hscope
      exact ⟨x, hx⟩
  | assigned who attr text howner =>
      have hknown := h.allOpen.owner howner
      exact h.kept.write hknown (pending_assign (h.kept.pending_read hknown) text)
  | modulated cursor name hattr =>
      have hknown := h.attr_known cursor hattr
      exact h.kept.write hknown ((h.kept.pending_read hknown).withModulator name)

theorem Linked.settle (h : Linked c r) (indent : Nat) : Linked c (r.settle indent) := by
  apply linked_of_allOpen (h.housed.settle indent)
  · rw [store_settle]
    exact h.kept
  · rw [store_settle]
    exact h.allOpen.settle indent

theorem Linked.of_opens {e : Event} {kind : LineKind} (hkeys : DistinctKeys c) (h : Linked c r)
    (heffect : Effect c strict r kind r'.store) (hopens : Opens r r' e)
    (hheader : ∀ frame, e = .trigger frame →
      ∃ name, TakesHeader c frame.kind name ∧ frame.key = makeScopeKey frame.kind name) :
    Linked c r' := by
  obtain ⟨hkept, hknows⟩ := h.effect heffect
  have hhoused := h.housed.of_opens heffect hopens
  have hbefore : AllOpen r'.store.Knows r := h.allOpen.mono hknows
  apply linked_of_allOpen hhoused hkept
  apply hbefore.of_opens hopens
  · rintro frame rfl
    obtain ⟨name, hheader, hkey⟩ := hheader frame rfl
    cases hopens with
    | trigger frame hframes htrigger hcomponent hattr hstore =>
        rw [hstore, hkey]
        exact h.kept.knows_declareTrigger hkeys hheader
  · rintro cursor rfl
    cases hopens with
    | component cursor hfree hframes htrigger hcomponent hattr hstored =>
        obtain ⟨x, hx⟩ := hhoused.component_home cursor hcomponent
        exact ⟨r'.home, x, hx⟩

theorem Linked.step (hkeys : DistinctKeys c) (h : Linked c r) (line : List Char) :
    Linked c (r.step c strict line) := by
  have hnext : Linked c { r with line := r.line + 1 } :=
    ⟨⟨h.housed.coherent, h.housed.component_home⟩, h.kept, h.frame_known, h.trigger_known, h.attr_known⟩
  cases hpasses : r.passes line with
  | true =>
      rw [step_of_passes hpasses]
      exact hnext
  | false =>
      rw [step_of_not_passes hpasses]
      refine (hnext.settle (indentOf line)).of_opens hkeys (effect_dispatch _ _) (opens_dispatch _ _ _) ?_
      intro frame hframe
      exact takesHeader_eventOf hframe

theorem Linked.readLines (hkeys : DistinctKeys c) (strict : Bool) (lines : List (List Char)) :
    ∀ {r}, Linked c r → Linked c (readLines c strict r lines) :=
  readLines_keeps (fun line h => h.step hkeys line) lines

theorem linked_readLines (hkeys : DistinctKeys c) (strict : Bool) (lines : List (List Char)) :
    Linked c (readLines c strict start lines) :=
  linked_start.readLines hkeys strict lines

end Reader

end Instrument.Document
