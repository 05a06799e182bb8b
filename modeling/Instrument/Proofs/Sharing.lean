import Instrument.Proofs.Registry
import Instrument.Store.Direct

namespace Instrument

theorem Table.map_eq_self {α : Type} {t : Table α} {f : String → α → α}
    (h : ∀ key a, t.get? key = some a → f key a = a) : t.map f = t := by
  refine Table.ext ((List.map_congr_left ?_).trans (List.map_id _))
  rintro ⟨key, a⟩ hmem
  rw [h key a ((t.get?_eq_some_iff key a).2 hmem)]
  rfl

namespace Store

variable {s : Store}

theorem alignTables_eq_self {c : Component} {tables : ComponentTables}
    (h : ∀ kind name other, tables.find? kind name = some other → other.isSame c = true → other = c) :
    alignTables c tables = tables := by
  refine Table.map_eq_self fun kind table htable => Table.map_eq_self fun name other hother => ?_
  split
  · next hsame =>
      refine (h kind name other ?_ hsame).symm
      rw [ComponentTables.find?, htable, Option.bind_some, hother]
  · rfl

theorem Coherent.eq_of_isSame (hs : s.Coherent) {c other : Component} {name kind name' : String}
    {scope : Option String} (hc : s.component? name = some c)
    (hother : s.componentAt? scope kind name' = some other) (hsame : other.isSame c = true) :
    other = c := by
  rw [component?_eq, Option.bind_eq_some_iff] at hc
  obtain ⟨info, -, hc⟩ := hc
  have hfits := hs.component_fits hc
  have hfits' := hs.component_fits hother
  simp only [Component.isSame, Bool.and_eq_true, beq_iff_eq] at hsame
  obtain ⟨⟨⟨⟨hname, hkind⟩, -⟩, hkey⟩, -⟩ := hsame
  rw [← hfits'.name_eq, hname, hfits.name_eq, ← hfits'.kind_eq, hkind, hfits.kind_eq,
    ← hfits'.key_eq, hkey, hfits.key_eq, hc] at hother
  exact (Option.some.inj hother).symm

theorem Coherent.align_eq_self (hs : s.Coherent) (name : String) : s.align name = s := by
  rw [align]
  cases hc : s.component? name with
  | none => rfl
  | some c =>
      have hglobal : alignTables c s.components = s.components := by
        refine alignTables_eq_self fun kind name' other hother => ?_
        have hplace : s.componentAt? none kind name' = some other := hother
        exact hs.eq_of_isSame hc hplace
      have hlocal : (s.triggers.map fun _ t => { t with components := alignTables c t.components }) =
          s.triggers := by
        refine Table.map_eq_self fun key t ht => ?_
        have htables : t.components = s.componentsAt (some key) := by
          simp [componentsAt, trigger?, ht]
        have haligned : alignTables c t.components = t.components := by
          refine alignTables_eq_self fun kind name' other hother => ?_
          rw [htables] at hother
          exact hs.eq_of_isSame hc hother
        rw [haligned]
      simp only [hglobal, hlocal]

theorem exists_componentAt? {c : Component} (h : c ∈ s.allComponents) :
    ∃ scope kind name, s.componentAt? scope kind name = some c := by
  obtain ⟨tables, htables, hc⟩ := List.mem_flatMap.1 h
  obtain ⟨table, htable, hc⟩ := List.mem_flatMap.1 hc
  obtain ⟨kind, hkind⟩ := (tables.mem_values_iff table).1 htable
  obtain ⟨name, hname⟩ := (table.mem_values_iff c).1 hc
  have hfound : tables.find? kind name = some c := by
    rw [ComponentTables.find?, hkind, Option.bind_some, hname]
  rcases List.mem_cons.1 htables with rfl | hlocal
  · exact ⟨none, kind, name, hfound⟩
  · obtain ⟨t, ht, rfl⟩ := List.mem_map.1 hlocal
    obtain ⟨key, hkey⟩ := (s.triggers.mem_values_iff t).1 ht
    refine ⟨some key, kind, name, ?_⟩
    simpa [componentAt?, componentsAt, trigger?, hkey] using hfound

theorem Coherent.nextEdition_of_free (hs : s.Coherent) {name : String} (hfree : s.nameInfo? name = none) :
    s.nextEdition name = 0 := by
  have hnone : s.allComponents.filter (·.name == name) = [] := by
    rw [List.filter_eq_nil_iff]
    intro c hc hname
    obtain ⟨scope, kind, name', hc⟩ := exists_componentAt? hc
    obtain ⟨info, hinfo, -⟩ := (hs.holds_iff name' (.componentTable scope kind)).1 ⟨c, hc⟩
    rw [← (hs.component_fits hc).name_eq, beq_iff_eq.1 hname, hfree] at hinfo
    cases hinfo
  rw [nextEdition, hnone, List.foldl_nil]

theorem nameInfo?_of_run_addComponent {kind name : String} {scope : Datum} {key : Option String}
    {attributes : List (String × Datum)}
    (h : ((Operation.addComponent kind name scope key attributes).run s).answer = .ok true) :
    s.nameInfo? name = none := by
  simp only [Operation.run, Outcome.inScope] at h
  cases hscope : ScopeKind.read scope with
  | error e =>
      rw [hscope] at h
      cases h
  | ok sc =>
      rw [hscope] at h
      obtain ⟨hfalse, -⟩ | ⟨-, -, hfree, -⟩ := addComponent_cases h
      · cases hfalse
      · exact hfree

/-- As long as nothing is written past the operations, no component is shared, and it makes no
difference to an operation that one might be. -/
theorem Coherent.runShared_eq_run (hs : s.Coherent) (op : Operation) : op.runShared s = op.run s := by
  have halign {name attr : String} {f : Cell → Except DatumError Cell} :
      (s.updateComponent name attr f).store.align name = (s.updateComponent name attr f).store :=
    ((s.keeps_updateComponent name attr f).coherent hs).align_eq_self name
  cases op with
  | setComponentAttribute name attr d => exact congrArg (Outcome.mk _ · _) halign
  | setComponentModulation name attr modulation => exact congrArg (Outcome.mk _ · _) halign
  | addComponent kind name scope key attributes =>
      simp only [Operation.runShared]
      split
      · next edition hanswer hedition =>
          rw [hs.nextEdition_of_free (nameInfo?_of_run_addComponent hanswer)] at hedition
          cases hedition
      · rfl
  | reset | declareTrigger | removeComponent | addVariable | removeVariable | setOverride
  | removeOverride | setTriggerAttribute | setTriggerModulation => rfl

theorem Reached.runShared_eq_run (hs : s.Reached) (op : Operation) : op.runShared s = op.run s :=
  hs.coherent.runShared_eq_run op

end Store

end Instrument
