import Instrument.Proofs.Evaluation
import Instrument.Proofs.Registry
import Instrument.Store.Snapshot
import Mathlib.Data.List.Forall2

namespace Instrument

namespace Table

variable {α : Type} {P : String → α → Prop} {t : Table α} {key : String}

def All (P : String → α → Prop) (t : Table α) : Prop := ∀ ⦃key a⦄, t.get? key = some a → P key a

theorem all_empty : All P .empty := by
  intro key a h
  simp at h

theorem All.insert (ht : t.All P) {a : α} (ha : P key a) : (t.insert key a).All P := by
  intro other b hb
  rw [get?_insert] at hb
  split at hb
  · next heq =>
      cases hb
      exact heq ▸ ha
  · exact ht hb

theorem All.erase (ht : t.All P) (key : String) : (t.erase key).All P := by
  intro other b hb
  rw [get?_erase] at hb
  split at hb
  · cases hb
  · exact ht hb

theorem All.modify (ht : t.All P) {f : α → α} (hf : ∀ a, P key a → P key (f a)) :
    (t.modify key f).All P := by
  rw [Table.modify]
  cases h : t.get? key with
  | none => exact ht
  | some a => exact ht.insert (hf a (ht h))

theorem All.getD (ht : t.All P) {fallback : α} (h : P key fallback) :
    P key ((t.get? key).getD fallback) := by
  cases hget : t.get? key with
  | none => exact h
  | some a => exact ht hget

theorem All.iff {Q R : String → α → Prop} (ht : t.All P) (h : ∀ key a, P key a → (Q key a ↔ R key a)) :
    t.All Q ↔ t.All R :=
  ⟨fun hq _ _ ha => (h _ _ (ht ha)).mp (hq ha), fun hr _ _ ha => (h _ _ (ht ha)).mpr (hr ha)⟩

theorem All.of_mem (ht : t.All P) {p : String × α} (h : p ∈ t.entries) : P p.1 p.2 :=
  ht ((t.get?_eq_some_iff p.1 p.2).mpr h)

end Table

def Cell.OfParts (cell : Cell) : Prop :=
  ∃ value modulation, cell = Attribute.ofParts value modulation

theorem Attribute.ofParts_given (a : Attribute) :
    Attribute.ofParts (Value.given a.value) (ComponentRef.given a.modulation) = .ok a := by
  obtain ⟨value, modulation⟩ := a
  cases value <;> cases modulation <;> rfl

theorem Attribute.ofParts_eq_error {value modulation : Datum} {e : DatumError}
    (h : Attribute.ofParts value modulation = .error e) : e = .foreign value modulation := by
  unfold Attribute.ofParts at h
  split at h
  all_goals cases h
  rfl

theorem Value.ofRecord_ne_foreign (d value modulation : Datum) :
    Value.ofRecord d ≠ .error (.foreign value modulation) := by
  have hfield : ∀ (g : Datum → Value) key,
      g <$> Value.requiredField key d ≠ .error (.foreign value modulation) := by
    intro g key h
    unfold Value.requiredField at h
    split at h <;> cases h
  unfold Value.ofRecord
  split
  case h_6 => simp
  all_goals exact hfield _ _

theorem Value.ofDatum_ne_foreign (d value modulation : Datum) :
    Value.ofDatum d ≠ .error (.foreign value modulation) := by
  cases d with
  | record fields =>
      intro h
      cases hread : Value.ofRecord (.record fields) with
      | ok v => simp [Value.ofDatum, hread] at h
      | error e =>
          simp only [Value.ofDatum, hread, Except.map_error, Except.error.injEq] at h
          exact Value.ofRecord_ne_foreign _ _ _ (h ▸ hread)
  | _ => simp [Value.ofDatum]

theorem Attribute.ofDatum_foreign {d value modulation : Datum}
    (h : Attribute.ofDatum d = .error (.foreign value modulation)) :
    Attribute.ofParts value modulation = .error (.foreign value modulation) := by
  unfold Attribute.ofDatum at h
  split at h
  · have hparts := Attribute.ofParts_eq_error h
    cases hparts
    exact h
  · exfalso
    split at h
    · rcases Expr.bind_eq_error.mp h with hmodulation | ⟨ref, -, hvalue⟩
      · rcases Expr.bind_eq_error.mp hmodulation with hfault | ⟨v, -, hkind⟩
        · exact Value.ofDatum_ne_foreign _ _ _ hfault
        · split at hkind <;> cases hkind
      · rcases Expr.bind_eq_error.mp hvalue with hfault | ⟨v, -, hdone⟩
        · exact Value.ofDatum_ne_foreign _ _ _ hfault
        · cases hdone
    · rcases Expr.bind_eq_error.mp h with hfault | ⟨v, -, hdone⟩
      · exact Value.ofDatum_ne_foreign _ _ _ hfault
      · cases hdone

namespace Cell

variable {cell given : Cell} {d : Datum}

theorem ofParts_ok (a : Attribute) : OfParts (.ok a) := ⟨_, _, (Attribute.ofParts_given a).symm⟩

theorem ofParts_ofDatum (h : Cell.ofDatum d = .ok cell) : cell.OfParts := by
  unfold Cell.ofDatum at h
  split at h
  · cases h
    exact ofParts_ok _
  · next hforeign =>
      cases h
      exact ⟨_, _, (Attribute.ofDatum_foreign hforeign).symm⟩
  · cases h

theorem ofParts_setValue (h : cell.setValue d = .ok given) : given.OfParts := by
  unfold setValue at h
  cases hv : Value.ofDatum d with
  | error e =>
      rw [hv] at h
      split at h <;> cases h
  | ok v =>
      rw [hv] at h
      split at h
      · cases h
        exact ofParts_ok _
      · cases h
        exact ⟨_, _, rfl⟩
      · cases h

theorem ofParts_setModulation {modulation : Option ComponentRef}
    (h : cell.setModulation modulation = .ok given) : given.OfParts := by
  unfold setModulation at h
  split at h
  · cases h
    exact ofParts_ok _
  · cases h
    exact ⟨_, _, rfl⟩
  · cases h

theorem all_ofParts_readAttributes {cells read : Table Cell} {attributes : List (String × Datum)}
    (hcells : cells.All fun _ => OfParts) (h : Store.readAttributes cells attributes = .ok read) :
    read.All fun _ => OfParts := by
  induction attributes generalizing cells with
  | nil =>
      cases h
      exact hcells
  | cons p rest ih =>
      simp only [Store.readAttributes] at h
      cases hcell : Cell.ofDatum p.2 with
      | error e => simp [hcell] at h
      | ok cell =>
          simp only [hcell] at h
          exact ih (hcells.insert (ofParts_ofDatum hcell)) h

end Cell

structure Component.Plain (c : Component) : Prop where
  edition_eq : c.edition = 0
  cells : c.attributes.All fun _ => Cell.OfParts

def ComponentTables.Plain (tables : ComponentTables) : Prop :=
  tables.All fun _ => Table.All fun _ => Component.Plain

structure Trigger.Plain (t : Trigger) : Prop where
  components : t.components.Plain
  cells : t.attributes.All fun _ => Cell.OfParts

structure Variable.LivesIn (v : Variable) (home : Option String) : Prop where
  scope_eq : v.scope = .ofHome home
  key_eq : v.key = home

structure Store.Plain (s : Store) : Prop where
  components : s.components.Plain
  triggers : s.triggers.All fun _ => Trigger.Plain
  globals : s.globalVariables.All fun _ v => v.LivesIn none
  locals : s.localVariables.All fun key => Table.All fun _ v => v.LivesIn (some key)

namespace ComponentTables.Plain

variable {tables : ComponentTables} {kind name : String}

theorem place (h : tables.Plain) {c : Component} (hc : c.Plain) :
    (ComponentTables.place tables kind name c).Plain :=
  Table.All.insert h ((Table.All.getD h Table.all_empty).insert hc)

theorem remove (h : tables.Plain) : (ComponentTables.remove tables kind name).Plain :=
  Table.All.modify h fun _ htable => htable.erase name

theorem change (h : tables.Plain) {f : Component → Component} (hf : ∀ c, c.Plain → (f c).Plain) :
    (ComponentTables.change tables kind name f).Plain :=
  Table.All.modify h fun _ htable => htable.modify hf

end ComponentTables.Plain

namespace Store

variable {s : Store}

theorem plain_empty : Plain .empty :=
  ⟨Table.all_empty, Table.all_empty, Table.all_empty, Table.all_empty⟩

theorem plain_freshTrigger (key kind : String) : (freshTrigger key kind).Plain :=
  ⟨Table.all_empty, Table.all_empty⟩

theorem Plain.triggerOrFresh (h : s.Plain) (key kind : String) : (s.triggerOrFresh key kind).Plain :=
  h.triggers.getD (plain_freshTrigger key kind)

theorem Plain.declareTrigger (h : s.Plain) (key kind : String) : (s.declareTrigger key kind).Plain :=
  { h with triggers := h.triggers.insert (h.triggerOrFresh key kind) }

theorem Plain.changeTrigger (h : s.Plain) (key : String) {f : Trigger → Trigger}
    (hf : ∀ t, t.Plain → (f t).Plain) : (s.changeTrigger key f).Plain :=
  { h with triggers := h.triggers.insert (hf _ (h.triggerOrFresh key "")) }

theorem Plain.changeTables (h : s.Plain) (info : NameInfo) {f : ComponentTables → ComponentTables}
    (hf : ∀ tables, tables.Plain → (f tables).Plain) : (s.changeTables info f).Plain := by
  unfold Store.changeTables
  split
  · exact { h with components := hf _ h.components }
  · exact { h with triggers := h.triggers.modify fun t ht => ⟨hf _ ht.components, ht.cells⟩ }

theorem Plain.register? (h : s.Plain) {name : String} {info : NameInfo} {registered : Store}
    (hr : s.register? name info = some registered) : registered.Plain := by
  obtain ⟨-, rfl⟩ := register?_eq_some.mp hr
  exact { h with }

theorem Plain.placeComponent (h : s.Plain) {c : Component} (hc : c.Plain) :
    (s.placeComponent c).Plain := by
  unfold Store.placeComponent
  split
  · exact { h with components := h.components.place hc }
  · exact h.changeTrigger _ fun t ht => ⟨ht.components.place hc, ht.cells⟩

theorem Plain.addComponent (h : s.Plain) (kind name : String) (scope : ScopeKind)
    (key : Option String) (attributes : List (String × Datum)) :
    (s.addComponent kind name scope key attributes).store.Plain := by
  unfold Store.addComponent
  split
  · exact h
  · split
    · exact h
    · next registered hr =>
        split
        · exact h.register? hr
        · next cells hcells =>
            exact (h.register? hr).placeComponent
              ⟨rfl, Cell.all_ofParts_readAttributes Table.all_empty hcells⟩

theorem Plain.removeComponent (h : s.Plain) (name : String) : (s.removeComponent name).store.Plain := by
  unfold Store.removeComponent
  split
  · exact h
  · exact { h.changeTables _ fun _ htables => htables.remove with }

theorem Plain.updateComponent (h : s.Plain) (name attr : String) {f : Cell → Except DatumError Cell}
    (hf : ∀ cell given, f cell = .ok given → given.OfParts) :
    (s.updateComponent name attr f).store.Plain := by
  unfold Store.updateComponent
  split
  · exact h
  · split
    · exact h
    · next cell hcell =>
        simp only [Outcome.store_done, changeComponent]
        split
        · exact h
        · refine h.changeTables _ fun _ htables => htables.change fun c hc => ?_
          exact ⟨hc.edition_eq, hc.cells.insert (hf _ _ hcell)⟩

theorem Plain.updateTrigger (h : s.Plain) (key attr : String) {f : Cell → Except DatumError Cell}
    (hf : ∀ cell given, f cell = .ok given → given.OfParts) :
    (s.updateTrigger key attr f).store.Plain := by
  unfold Store.updateTrigger
  simp only
  split
  · exact h.changeTrigger key fun _ ht => ht
  · next cell hcell =>
      rw [Outcome.store_done]
      refine h.changeTrigger key fun t ht => ?_
      exact { ht with cells := ht.cells.insert (hf _ _ hcell) }

theorem Plain.placeVariable (h : s.Plain) {v : Variable} (home : Option String)
    (hv : v.LivesIn home) : (s.placeVariable v).Plain := by
  unfold Store.placeVariable
  rw [hv.scope_eq, hv.key_eq]
  cases home with
  | none => exact { h with globals := h.globals.insert hv }
  | some key =>
      exact { h with locals := h.locals.insert ((h.locals.getD Table.all_empty).insert hv) }

theorem Plain.addVariable (h : s.Plain) (name : String) (d : Datum) (scope : ScopeKind)
    (key : Option String) (lower upper : Datum) (line : Option Int) :
    (s.addVariable name d scope key lower upper line).store.Plain := by
  unfold Store.addVariable
  split
  · exact h
  · next hkey =>
      have hhome := ScopeKind.keyFor_eq_home (by simpa using hkey)
      simp only
      split
      · exact h
      · next registered hr =>
          have hregistered : registered.Plain := by
            split at hr
            · cases hr
              exact h
            · exact h.register? hr
          split
          · exact hregistered
          · refine hregistered.placeVariable (scope.home key) ⟨?_, hhome⟩
            exact ScopeKind.ofHome_home.symm

theorem Plain.removeVariable (h : s.Plain) (name : String) : (s.removeVariable name).store.Plain := by
  unfold Store.removeVariable
  split
  · exact h
  · simp only [Outcome.store_done]
    split
    · exact { h with globals := h.globals.erase name }
    · exact { h with locals := h.locals.modify fun _ htable => htable.erase name }

theorem Plain.setOverride (h : s.Plain) (name : String) (d : Datum) (key : String) :
    (s.setOverride name d key).store.Plain := by
  unfold Store.setOverride
  split
  · exact h.changeTrigger key fun _ ht => ht
  · rw [Outcome.store_done]
    refine h.changeTrigger key fun t ht => ?_
    exact { ht with }

theorem Plain.removeOverride (h : s.Plain) (name key : String) :
    (s.removeOverride name key).store.Plain := by
  unfold Store.removeOverride
  split
  · exact h
  · split
    · rw [Outcome.store_done]
      refine h.changeTrigger key fun t ht => ?_
      exact { ht with }
    · exact h

theorem Plain.inScope (h : s.Plain) (scope : Datum) {run : ScopeKind → Outcome Bool}
    (hrun : ∀ sc, (run sc).store.Plain) : (Outcome.inScope s scope run).store.Plain := by
  unfold Outcome.inScope
  split
  · exact hrun _
  · exact h

theorem Plain.run (h : s.Plain) (op : Operation) : (op.run s).store.Plain := by
  cases op with
  | reset => exact plain_empty
  | declareTrigger key kind => exact h.declareTrigger key kind
  | addComponent kind name scope key attributes =>
      exact h.inScope scope fun sc => h.addComponent kind name sc key attributes
  | removeComponent name => exact h.removeComponent name
  | setComponentAttribute name attr d =>
      exact h.updateComponent name attr fun _ _ => Cell.ofParts_setValue
  | setComponentModulation name attr modulation =>
      exact h.updateComponent name attr fun _ _ => Cell.ofParts_setModulation
  | addVariable name d scope key lower upper line =>
      exact h.inScope scope fun sc => h.addVariable name d sc key lower upper line
  | removeVariable name => exact h.removeVariable name
  | setOverride name d key => exact h.setOverride name d key
  | removeOverride name key => exact h.removeOverride name key
  | setTriggerAttribute key attr d =>
      exact h.updateTrigger key attr fun _ _ => Cell.ofParts_setValue
  | setTriggerModulation key attr modulation =>
      exact h.updateTrigger key attr fun _ _ => Cell.ofParts_setModulation

theorem Plain.runAll (h : s.Plain) (ops : List Operation) : (s.runAll ops).Plain := by
  induction ops generalizing s with
  | nil => exact h
  | cons op rest ih => exact ih (h.run op)

end Store

namespace Snapshot

variable {α : Type} {P : α → Prop} {f : α → Except DatumError Datum}

def Distinguishes (P : α → Prop) (f : α → Except DatumError Datum) : Prop :=
  ∀ ⦃a b d⦄, P a → P b → f a = .ok d → f b = .ok d → a = b

theorem mapM_eq_ok_iff {ε β γ : Type} {f : β → Except ε γ} {xs : List β} {ys : List γ} :
    xs.mapM f = .ok ys ↔ List.Forall₂ (fun x y => f x = .ok y) xs ys := by
  induction xs generalizing ys with
  | nil => cases ys <;> simp [pure, Except.pure]
  | cons x xs ih =>
      rw [List.mapM_cons, Expr.bind_eq_ok, List.forall₂_cons_left_iff]
      refine exists_congr fun y => ⟨?_, ?_⟩
      · rintro ⟨hy, h⟩
        obtain ⟨rest, hrest, hys⟩ := Expr.bind_eq_ok.mp h
        cases hys
        exact ⟨rest, hy, ih.mp hrest, rfl⟩
      · rintro ⟨rest, hy, hrest, rfl⟩
        exact ⟨hy, Expr.bind_eq_ok.mpr ⟨rest, ih.mpr hrest, rfl⟩⟩

theorem table_eq_ok_iff {t : Table α} {d : Datum} :
    table f t = .ok d ↔
      ∃ fields, List.Forall₂ (fun p q => p.1 = q.1 ∧ f p.2 = .ok q.2) t.entries fields ∧
        d = .record fields := by
  have hentry : ∀ (p : String × α) (q : String × Datum),
      (do return (p.1, ← f p.2) : Except DatumError (String × Datum)) = .ok q ↔
        p.1 = q.1 ∧ f p.2 = .ok q.2 := by
    intro p q
    cases hp : f p.2 with
    | error e => simp [bind, Except.bind]
    | ok told => simp [bind, Except.bind, pure, Except.pure, Prod.ext_iff]
  unfold table
  simp only [Expr.bind_eq_ok, mapM_eq_ok_iff, hentry]
  refine exists_congr fun fields => and_congr_right fun _ => ?_
  exact ⟨fun h => (Except.ok.inj h).symm, fun h => h ▸ rfl⟩

theorem distinguishes_table {Q : String → α → Prop} (hf : ∀ key, Distinguishes (Q key) f) :
    Distinguishes (Table.All Q) (table f) := by
  intro s t d hs ht hsd htd
  obtain ⟨fields, hfields, rfl⟩ := table_eq_ok_iff.mp hsd
  obtain ⟨_, hfields', ⟨⟩⟩ := table_eq_ok_iff.mp htd
  have hunique : Relator.LeftUnique
      (fun (p : String × α) (q : String × Datum) => Q p.1 p.2 ∧ p.1 = q.1 ∧ f p.2 = .ok q.2) := by
    rintro ⟨key, a⟩ ⟨_, _⟩ ⟨key', b⟩ ⟨ha, rfl, hfa⟩ ⟨hb, rfl, hfb⟩
    exact Prod.ext rfl (hf _ ha hb hfa hfb)
  apply Table.ext
  apply List.left_unique_forall₂' hunique
  · exact (List.forall₂_and_left _ _).mpr ⟨fun _ hp => hs.of_mem hp, hfields⟩
  · exact (List.forall₂_and_left _ _).mpr ⟨fun _ hp => ht.of_mem hp, hfields'⟩

end Snapshot

theorem ComponentRef.toDatum_injective : Function.Injective ComponentRef.toDatum := by
  rintro ⟨name, kind⟩ ⟨name', kind'⟩ h
  simpa [ComponentRef.toDatum] using h

theorem Value.toDatum_injective : Function.Injective Value.toDatum := by
  intro v w h
  cases v <;> cases w
  case componentRef.componentRef r r' => exact congrArg _ (ComponentRef.toDatum_injective h)
  all_goals simp_all [Value.toDatum, ComponentRef.toDatum]

theorem Value.ofOption_injective : Function.Injective Value.ofOption := by
  have hnull : ∀ v : Value, v.toDatum ≠ .null := by
    intro v
    cases v <;> simp [Value.toDatum, ComponentRef.toDatum]
  rintro (_ | v) (_ | w) h
  · rfl
  · exact absurd h.symm (hnull w)
  · exact absurd h (hnull v)
  · exact congrArg some (Value.toDatum_injective h)

theorem Attribute.partToDatum_eq_ok {part d : Datum} (h : partToDatum part = .ok d) :
    ∃ v, part = Value.given v ∧ d = Value.ofOption v := by
  unfold partToDatum at h
  split at h
  · cases h
    exact ⟨none, rfl, rfl⟩
  · cases h
    exact ⟨some _, rfl, rfl⟩
  · cases h

theorem Snapshot.cell_ofParts (value modulation : Datum) :
    Snapshot.cell (Attribute.ofParts value modulation) = Attribute.partsToDatum value modulation := by
  unfold Attribute.ofParts
  split <;> rfl

theorem Attribute.partsToDatum_eq_ok {value modulation d : Datum}
    (h : partsToDatum value modulation = .ok d) :
    ∃ v m, value = Value.given v ∧ modulation = Value.given m ∧
      d = .record [("value", Value.ofOption v), ("modulation", Value.ofOption m)] := by
  obtain ⟨_, hv, h⟩ := Expr.bind_eq_ok.mp h
  obtain ⟨_, hm, h⟩ := Expr.bind_eq_ok.mp h
  cases h
  obtain ⟨v, rfl, rfl⟩ := partToDatum_eq_ok hv
  obtain ⟨m, rfl, rfl⟩ := partToDatum_eq_ok hm
  exact ⟨v, m, rfl, rfl, rfl⟩

namespace Snapshot

theorem distinguishes_cell : Distinguishes Cell.OfParts cell := by
  rintro _ _ d ⟨value, modulation, rfl⟩ ⟨value', modulation', rfl⟩ h h'
  rw [cell_ofParts] at h h'
  obtain ⟨v, m, rfl, rfl, rfl⟩ := Attribute.partsToDatum_eq_ok h
  obtain ⟨v', m', rfl, rfl, hd⟩ := Attribute.partsToDatum_eq_ok h'
  simp only [Datum.record.injEq, List.cons.injEq, Prod.mk.injEq, true_and, and_true] at hd
  rw [Value.ofOption_injective hd.1, Value.ofOption_injective hd.2]

theorem value_eq_ok {v : Option Value} {d : Datum} (h : value v = .ok d) :
    ∃ w, v = some w ∧ d = w.toDatum := by
  cases v with
  | none => cases h
  | some w =>
      cases h
      exact ⟨w, rfl, rfl⟩

theorem distinguishes_value : Distinguishes (fun _ => True) value := by
  intro v w d _ _ h h'
  obtain ⟨a, rfl, rfl⟩ := value_eq_ok h
  obtain ⟨b, rfl, hd⟩ := value_eq_ok h'
  exact congrArg some (Value.toDatum_injective hd)

theorem orNull_injective : Function.Injective orNull := by
  intro key other h
  cases key <;> cases other <;> simp_all [orNull]

theorem scopeName_injective : Function.Injective ScopeKind.name := by
  intro scope other h
  cases scope <;> cases other <;> simp_all [ScopeKind.name]

theorem nameInfo_injective : Function.Injective nameInfo := by
  rintro ⟨scope, kind, key⟩ ⟨scope', kind', key'⟩ h
  simp only [nameInfo, Datum.record.injEq, List.cons.injEq, Prod.mk.injEq, Datum.text.injEq, true_and,
    and_true] at h
  obtain ⟨hscope, rfl, hkey⟩ := h
  rw [scopeName_injective hscope, orNull_injective hkey]

theorem distinguishes_component : Distinguishes Component.Plain component := by
  intro c c' d hc hc' h h'
  obtain ⟨attributes, hcells, h⟩ := Expr.bind_eq_ok.mp h
  obtain ⟨attributes', hcells', h'⟩ := Expr.bind_eq_ok.mp h'
  cases h
  simp only [pure, Except.pure, Except.ok.injEq, Datum.record.injEq, List.cons.injEq, Prod.mk.injEq,
    Datum.text.injEq, true_and, and_true] at h'
  obtain ⟨hkind, hname, hscope, hkey, rfl⟩ := h'
  have hsame := distinguishes_table (fun _ => distinguishes_cell) hc.cells hc'.cells hcells hcells'
  have hedition := hc.edition_eq.trans hc'.edition_eq.symm
  obtain ⟨kind, name, scope, key, cells, edition⟩ := c
  obtain ⟨kind', name', scope', key', cells', edition'⟩ := c'
  rw [Component.mk.injEq]
  exact ⟨hkind.symm, hname.symm, scopeName_injective hscope.symm, orNull_injective hkey.symm, hsame,
    hedition⟩

theorem distinguishes_components : Distinguishes ComponentTables.Plain components :=
  distinguishes_table fun _ => distinguishes_table fun _ => distinguishes_component

theorem distinguishes_trigger : Distinguishes Trigger.Plain trigger := by
  intro t t' d ht ht' h h'
  obtain ⟨owned, howned, h⟩ := Expr.bind_eq_ok.mp h
  obtain ⟨attributes, hcells, h⟩ := Expr.bind_eq_ok.mp h
  obtain ⟨overrides, hoverrides, h⟩ := Expr.bind_eq_ok.mp h
  obtain ⟨owned', howned', h'⟩ := Expr.bind_eq_ok.mp h'
  obtain ⟨attributes', hcells', h'⟩ := Expr.bind_eq_ok.mp h'
  obtain ⟨overrides', hoverrides', h'⟩ := Expr.bind_eq_ok.mp h'
  cases h
  simp only [pure, Except.pure, Except.ok.injEq, Datum.record.injEq, List.cons.injEq, Prod.mk.injEq,
    Datum.text.injEq, true_and, and_true] at h'
  obtain ⟨hkey, hkind, rfl, rfl, rfl⟩ := h'
  obtain ⟨key, kind, components, cells, given⟩ := t
  obtain ⟨key', kind', components', cells', given'⟩ := t'
  rw [Trigger.mk.injEq]
  refine ⟨hkey.symm, hkind.symm, distinguishes_components ht.components ht'.components howned howned',
    distinguishes_table (fun _ => distinguishes_cell) ht.cells ht'.cells hcells hcells', ?_⟩
  exact distinguishes_table (Q := fun _ _ => True) (fun _ => distinguishes_value)
    (fun _ _ _ => trivial) (fun _ _ _ => trivial) hoverrides hoverrides'

theorem distinguishes_variable (home : Option String) :
    Distinguishes (·.LivesIn home) variableData := by
  intro v v' d hv hv' h h'
  obtain ⟨content, hvalue, h⟩ := Expr.bind_eq_ok.mp h
  obtain ⟨content', hvalue', h'⟩ := Expr.bind_eq_ok.mp h'
  cases h
  simp only [pure, Except.pure, Except.ok.injEq, Datum.record.injEq, List.cons.injEq, Prod.mk.injEq,
    Datum.text.injEq, true_and, and_true] at h'
  obtain ⟨hname, rfl, hlower, hupper, hline⟩ := h'
  have hsame := distinguishes_value trivial trivial hvalue hvalue'
  have hscope := hv.scope_eq.trans hv'.scope_eq.symm
  have hkey := hv.key_eq.trans hv'.key_eq.symm
  obtain ⟨name, value, scope, key, lower, upper, line⟩ := v
  obtain ⟨name', value', scope', key', lower', upper', line'⟩ := v'
  rw [Variable.mk.injEq]
  refine ⟨hname.symm, hsame, hscope, hkey, hlower.symm, hupper.symm, ?_⟩
  cases line <;> cases line' <;> simp_all [Datum.int]

end Snapshot

def Cell.OfValues (cell : Cell) : Prop :=
  ∃ value modulation, cell = Attribute.ofParts (Value.given value) (Value.given modulation)

def Component.Complete (c : Component) : Prop := c.attributes.All fun _ => Cell.OfValues

def ComponentTables.Complete (tables : ComponentTables) : Prop :=
  tables.All fun _ => Table.All fun _ => Component.Complete

@[mk_iff] structure Trigger.Complete (t : Trigger) : Prop where
  components : t.components.Complete
  cells : t.attributes.All fun _ => Cell.OfValues
  overrides : t.overrides.All fun _ v => v.isSome = true

/-- Every attribute is made of values, and every variable has one, also where a trigger gives it. -/
@[mk_iff] structure Store.Complete (s : Store) : Prop where
  components : s.components.Complete
  triggers : s.triggers.All fun _ => Trigger.Complete
  globals : s.globalVariables.All fun _ v => v.value.isSome = true
  locals : s.localVariables.All fun _ => Table.All fun _ v => v.value.isSome = true

namespace Snapshot

theorem exists_bind_iff {ε β γ : Type} {x : Except ε β} {g : β → Except ε γ} {R : Prop}
    (hg : ∀ b, (∃ d, g b = .ok d) ↔ R) : (∃ d, x >>= g = .ok d) ↔ (∃ b, x = .ok b) ∧ R := by
  simp only [Expr.bind_eq_ok, exists_comm (α := γ), exists_and_left, hg, exists_and_right]

theorem exists_return_iff {ε β : Type} (b : β) : (∃ d, (return b : Except ε β) = .ok d) ↔ True :=
  iff_of_true ⟨b, rfl⟩ trivial

theorem exists_forall₂_iff {β γ : Type} {R : β → γ → Prop} {xs : List β} :
    (∃ ys, List.Forall₂ R xs ys) ↔ ∀ x ∈ xs, ∃ y, R x y := by
  induction xs with
  | nil => simp
  | cons x xs ih =>
      rw [List.forall_mem_cons, ← ih]
      constructor
      · rintro ⟨_, h⟩
        cases h with
        | cons hx hxs => exact ⟨⟨_, hx⟩, _, hxs⟩
      · rintro ⟨⟨y, hy⟩, ys, hys⟩
        exact ⟨y :: ys, .cons hy hys⟩

theorem exists_table_iff {Q R : String → α → Prop} {t : Table α} (ht : t.All Q)
    (hf : ∀ key a, Q key a → ((∃ d, f a = .ok d) ↔ R key a)) :
    (∃ d, table f t = .ok d) ↔ t.All R := by
  have hfields : (∃ d, table f t = .ok d) ↔ ∃ fields : List (String × Datum),
      List.Forall₂ (fun p q => p.1 = q.1 ∧ f p.2 = .ok q.2) t.entries fields := by
    simp only [table_eq_ok_iff]
    exact ⟨fun ⟨_, fields, h, _⟩ => ⟨fields, h⟩, fun ⟨fields, h⟩ => ⟨_, fields, h, rfl⟩⟩
  rw [hfields, exists_forall₂_iff, ← ht.iff hf]
  constructor
  · intro h key a hget
    obtain ⟨q, -, hq⟩ := h _ ((t.get?_eq_some_iff key a).mp hget)
    exact ⟨_, hq⟩
  · intro h p hp
    obtain ⟨d, hd⟩ := h.of_mem hp
    exact ⟨(p.1, d), rfl, hd⟩

theorem exists_cell_iff {cell : Cell} (h : cell.OfParts) :
    (∃ d, Snapshot.cell cell = .ok d) ↔ cell.OfValues := by
  constructor
  · rintro ⟨d, hd⟩
    obtain ⟨value, modulation, rfl⟩ := h
    rw [cell_ofParts] at hd
    obtain ⟨v, m, rfl, rfl, -⟩ := Attribute.partsToDatum_eq_ok hd
    exact ⟨v, m, rfl⟩
  · rintro ⟨v, m, rfl⟩
    rw [cell_ofParts]
    cases v <;> cases m <;> exact ⟨_, rfl⟩

theorem exists_value_iff {v : Option Value} : (∃ d, value v = .ok d) ↔ v.isSome = true := by
  cases v <;> simp [value]

theorem exists_component_iff {c : Component} (h : c.Plain) :
    (∃ d, component c = .ok d) ↔ c.Complete := by
  rw [component, exists_bind_iff fun _ => exists_return_iff _, and_true]
  exact exists_table_iff h.cells fun _ _ => exists_cell_iff

theorem exists_components_iff {tables : ComponentTables} (h : tables.Plain) :
    (∃ d, components tables = .ok d) ↔ tables.Complete :=
  exists_table_iff h fun _ _ htable => exists_table_iff htable fun _ _ => exists_component_iff

theorem exists_trigger_iff {t : Trigger} (h : t.Plain) : (∃ d, trigger t = .ok d) ↔ t.Complete := by
  rw [trigger, exists_bind_iff fun _ => exists_bind_iff fun _ => exists_bind_iff fun _ =>
    exists_return_iff _, Trigger.complete_iff, and_true]
  refine and_congr (exists_components_iff h.components) (and_congr ?_ ?_)
  · exact exists_table_iff h.cells fun _ _ => exists_cell_iff
  · exact exists_table_iff (Q := fun _ _ => True) (fun _ _ _ => trivial) fun _ _ _ => exists_value_iff

theorem exists_variable_iff {v : Variable} :
    (∃ d, variableData v = .ok d) ↔ v.value.isSome = true := by
  rw [variableData, exists_bind_iff fun _ => exists_return_iff _, and_true, exists_value_iff]

end Snapshot

namespace Store

variable {s : Store}

theorem Plain.exists_snapshot_iff (h : s.Plain) : (∃ d, s.snapshot = .ok d) ↔ s.Complete := by
  rw [snapshot, Snapshot.exists_bind_iff fun _ => Snapshot.exists_bind_iff fun _ =>
    Snapshot.exists_bind_iff fun _ => Snapshot.exists_bind_iff fun _ => Snapshot.exists_return_iff _,
    Store.complete_iff, and_true]
  refine and_congr (Snapshot.exists_components_iff h.components) (and_congr ?_ (and_congr ?_ ?_))
  · exact Snapshot.exists_table_iff h.triggers fun _ _ => Snapshot.exists_trigger_iff
  · exact Snapshot.exists_table_iff h.globals fun _ _ _ => Snapshot.exists_variable_iff
  · exact Snapshot.exists_table_iff h.locals fun _ _ htable =>
      Snapshot.exists_table_iff htable fun _ _ _ => Snapshot.exists_variable_iff

/-- Stores in which all is as operations make it are the same where their data are. -/
theorem distinguishes_snapshot : Snapshot.Distinguishes Plain snapshot := by
  intro s t d hs ht h h'
  obtain ⟨components, hcomponents, h⟩ := Expr.bind_eq_ok.mp h
  obtain ⟨triggers, htriggers, h⟩ := Expr.bind_eq_ok.mp h
  obtain ⟨globals, hglobals, h⟩ := Expr.bind_eq_ok.mp h
  obtain ⟨locals, hlocals, h⟩ := Expr.bind_eq_ok.mp h
  obtain ⟨components', hcomponents', h'⟩ := Expr.bind_eq_ok.mp h'
  obtain ⟨triggers', htriggers', h'⟩ := Expr.bind_eq_ok.mp h'
  obtain ⟨globals', hglobals', h'⟩ := Expr.bind_eq_ok.mp h'
  obtain ⟨locals', hlocals', h'⟩ := Expr.bind_eq_ok.mp h'
  cases h
  simp only [pure, Except.pure, Except.ok.injEq, Datum.record.injEq, List.cons.injEq, Prod.mk.injEq,
    true_and, and_true] at h'
  obtain ⟨rfl, rfl, ⟨rfl, rfl⟩, hnames⟩ := h'
  have hregistry : s.names = t.names := by
    apply Table.ext
    apply Function.Injective.list_map (f := fun p : String × NameInfo => (p.1, Snapshot.nameInfo p.2))
    · rintro ⟨name, info⟩ ⟨name', info'⟩ hp
      rw [Prod.mk.injEq] at hp ⊢
      exact ⟨hp.1, Snapshot.nameInfo_injective hp.2⟩
    · exact hnames.symm
  obtain ⟨sc, st, sg, sl, sn⟩ := s
  obtain ⟨tc, tt, tg, tl, tn⟩ := t
  rw [Store.mk.injEq]
  refine ⟨?_, ?_, ?_, ?_, hregistry⟩
  · exact Snapshot.distinguishes_components hs.components ht.components hcomponents hcomponents'
  · exact Snapshot.distinguishes_table (fun _ => Snapshot.distinguishes_trigger) hs.triggers
      ht.triggers htriggers htriggers'
  · exact Snapshot.distinguishes_table (fun _ => Snapshot.distinguishes_variable none) hs.globals
      ht.globals hglobals hglobals'
  · exact Snapshot.distinguishes_table (fun key => Snapshot.distinguishes_table fun _ =>
      Snapshot.distinguishes_variable (some key)) hs.locals ht.locals hlocals hlocals'

/-- Operations that lead to the same data lead to the same store, whatever each of them answers. -/
theorem snapshot_determines_store {ops others : List Operation} {d : Datum}
    (h : (empty.runAll ops).snapshot = .ok d) (h' : (empty.runAll others).snapshot = .ok d) :
    empty.runAll ops = empty.runAll others :=
  distinguishes_snapshot (plain_empty.runAll ops) (plain_empty.runAll others) h h'

def voiced : List Operation :=
  [.addVariable "depth" (.number (.int 3)) (.text "trigger") (some "note_c4") .null .null (some 2),
    .addComponent "lfo" "wobble" (.text "global") none [("rate", .number (.int 5))],
    .setOverride "depth" (.number (.int 7)) "note_c4"]

def revoiced : List Operation :=
  [.declareTrigger "drum" "drum", .reset,
    .addVariable "depth" (.text "low") (.text "trigger") (some "note_c4") .null .null (some 1),
    .addVariable "depth" (.number (.int 3)) (.text "trigger") (some "note_c4") .null .null (some 2),
    .addComponent "lfo" "wobble" (.text "global") none [("rate", .number (.int 4))],
    .addComponent "osc" "wobble" (.text "global") none [],
    .setOverride "depth" (.number (.int 7)) "note_c4",
    .setComponentAttribute "wobble" "rate" (.number (.int 5))]

theorem same_store_voiced : ∃ d, (empty.runAll voiced).snapshot = .ok d ∧
    (empty.runAll revoiced).snapshot = .ok d ∧ empty.runAll voiced = empty.runAll revoiced :=
  ⟨_, rfl, rfl, snapshot_determines_store rfl rfl⟩

end Store

end Instrument
