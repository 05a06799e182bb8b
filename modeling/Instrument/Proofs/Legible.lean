import Instrument.Proofs.Kinds
import Mathlib.Data.List.Nodup

namespace Instrument

namespace Store

variable {s t : Store} {who owner : Owner} {attr : String} {a : Attribute}

def Reaches (s : Store) : Owner → Prop
  | .component name kind => ∃ scope x, s.componentAt? scope kind name = some x
  | .trigger key _ => (s.head? key).isSome

theorem read_of_bare (h : who.bare = owner.bare) (s : Store) (attr : String) :
    s.read who attr = s.read owner attr := by
  rw [read_eq, cell?_of_bare h, read_eq]

theorem write_of_bare (h : who.bare = owner.bare) (s : Store) (attr : String) (a : Attribute) :
    s.write who attr a = s.write owner attr a := by
  have hbare (other : Owner) : s.write other.bare attr a = s.write other attr a := by cases other <;> rfl
  rw [← hbare, h, hbare]

theorem Reaches.knows (h : s.Reaches who) : ∃ who', s.Knows who' ∧ who'.bare = who.bare := by
  cases who with
  | component name kind => exact ⟨.component name kind, h, rfl⟩
  | trigger key kind =>
      rw [Reaches, head?, Option.isSome_map, Option.isSome_iff_exists] at h
      obtain ⟨x, hx⟩ := h
      exact ⟨.trigger key x.kind, ⟨x, hx, rfl⟩, rfl⟩

theorem Readable.setCell (h : s.Readable) (hs : s.Coherent) (hknown : s.Knows who) (attr : String)
    (a : Attribute) : (s.setCell who attr (.ok a)).Readable := by
  intro other attr' cell hcell
  rcases hcell.of_setCell hs hknown with ⟨-, -, rfl⟩ | ⟨-, hcell⟩
  · exact ⟨a, rfl⟩
  · exact h other attr' cell hcell

theorem Readable.write (h : s.Readable) (hs : s.Coherent) (hwho : s.Reaches who) (attr : String)
    (a : Attribute) : (s.write who attr a).Readable := by
  obtain ⟨who', hknown, hbare⟩ := hwho.knows
  rw [← s.write_of_bare hbare, h.write_eq hs hknown]
  exact h.setCell hs hknown attr a

theorem Readable.grows (h : s.Readable) (hgrows : s.Grows t) : t.Readable :=
  fun owner attr cell hcell => h owner attr cell (hgrows.hasCell hcell)

/-- A store in which every attribute can be read, in one place. -/
structure Legible (c : Catalog) (s : Store) : Prop where
  coherent : s.Coherent
  headed : s.Headed c
  readable : s.Readable

theorem Legible.key_eq {c : Catalog} (h : s.Legible c) {key : String} {x : Trigger}
    (hx : s.trigger? key = some x) : x.key = key :=
  (h.headed key (x.key, x.kind) (by rw [head?, hx, Option.map_some])).1

theorem Legible.setCell {c : Catalog} (h : s.Legible c) (hknown : s.Knows who) (attr : String)
    (a : Attribute) : (s.setCell who attr (.ok a)).Legible c where
  coherent := (s.keeps_setCell ..).coherent h.coherent
  headed := by
    refine h.headed.congr fun key => ?_
    rw [← h.readable.write_eq h.coherent hknown]
    refine head?_write ?_ ..
    cases who with
    | component name kind => trivial
    | trigger key' kind =>
        obtain ⟨x, hx, -⟩ := hknown
        rw [Present, head?, hx]
        rfl
  readable := h.readable.setCell h.coherent hknown attr a

end Store

namespace Document

open Text

namespace Reader

variable {c : Catalog} {strict : Bool} {r r' : Reader} {kind : LineKind} {t : Store}

theorem mem_targets_of_legible {s : Store} (h : s.Legible c) {owner : Owner} {attr : String} :
    (owner, attr) ∈ targets s ↔ ∃ cell, s.HasCell owner attr cell :=
  mem_targets_of_coherent h.coherent h.key_eq

theorem nodup_flatMap_values {α β : Type} {table : Table α} {f : α → List β}
    (hf : ∀ key x, table.get? key = some x → (f x).Nodup)
    (hdisjoint : ∀ {key key' x y b}, table.get? key = some x → table.get? key' = some y →
      b ∈ f x → b ∈ f y → key = key') : (table.values.flatMap f).Nodup := by
  have hall : ∀ p ∈ table.entries, table.get? p.1 = some p.2 := by
    intro p hp
    exact (table.get?_eq_some_iff p.1 p.2).2 hp
  have hkeys : (table.entries.map Prod.fst).Nodup := table.distinct
  rw [Table.values, List.nodup_flatMap, List.pairwise_map]
  constructor
  · intro x hx
    obtain ⟨p, hp, rfl⟩ := List.mem_map.1 hx
    exact hf p.1 p.2 (hall p hp)
  · rw [List.nodup_iff_pairwise_ne, List.pairwise_map] at hkeys
    refine hkeys.imp_of_mem ?_
    intro p q hp hq hne b hb hb'
    exact hne (hdisjoint (hall p hp) (hall q hq) hb hb')

theorem componentAt?_of_mem {s : Store} {scope : Option String} {kind name : String}
    {table : Table Component} {x : Component} (htable : (s.componentsAt scope).get? kind = some table)
    (hx : table.get? name = some x) : s.componentAt? scope kind name = some x := by
  rw [Store.componentAt?, ComponentTables.find?, htable, Option.bind_some, hx]

theorem componentTargets_nodup {s : Store} (hs : s.Coherent) (scope : Option String) :
    (componentTargets (s.componentsAt scope)).Nodup := by
  refine nodup_flatMap_values ?_ ?_
  · intro kind table htable
    refine nodup_flatMap_values ?_ ?_
    · intro name x hx
      exact List.Nodup.map (fun _ _ hsame => (Prod.ext_iff.1 hsame).2) x.attributes.keys_nodup
    · intro name name' x y b hx hy hb hb'
      obtain ⟨attr, -, rfl⟩ := List.mem_map.1 hb
      obtain ⟨attr', -, hsame⟩ := List.mem_map.1 hb'
      have hfits := hs.component_fits (componentAt?_of_mem htable hx)
      have hfits' := hs.component_fits (componentAt?_of_mem htable hy)
      simp only [Prod.mk.injEq, Owner.component.injEq] at hsame
      rw [← hfits.name_eq, ← hfits'.name_eq, hsame.1.1]
  · intro kind kind' table table' b htable htable' hb hb'
    obtain ⟨x, hx, hb⟩ := List.mem_flatMap.1 hb
    obtain ⟨y, hy, hb'⟩ := List.mem_flatMap.1 hb'
    obtain ⟨name, hx⟩ := (Table.mem_values_iff ..).1 hx
    obtain ⟨name', hy⟩ := (Table.mem_values_iff ..).1 hy
    obtain ⟨attr, -, rfl⟩ := List.mem_map.1 hb
    obtain ⟨attr', -, hsame⟩ := List.mem_map.1 hb'
    have hfits := hs.component_fits (componentAt?_of_mem htable hx)
    have hfits' := hs.component_fits (componentAt?_of_mem htable' hy)
    simp only [Prod.mk.injEq, Owner.component.injEq] at hsame
    rw [← hfits.kind_eq, ← hfits'.kind_eq, hsame.1.2]

theorem scope_eq_of_mem {s : Store} (hs : s.Coherent) {scope scope' : Option String}
    {b : Owner × String} (hb : b ∈ componentTargets (s.componentsAt scope))
    (hb' : b ∈ componentTargets (s.componentsAt scope')) : scope = scope' := by
  obtain ⟨kind, name, x, -, hx, -, howner⟩ := (mem_componentTargets_componentsAt hs).1 hb
  obtain ⟨kind', name', y, -, hy, -, howner'⟩ := (mem_componentTargets_componentsAt hs).1 hb'
  cases howner.symm.trans howner'
  obtain ⟨info, hinfo, rfl, -⟩ := hs.componentInfo?_eq hx
  obtain ⟨info', hinfo', rfl, -⟩ := hs.componentInfo?_eq hy
  rw [Option.some.inj (hinfo.symm.trans hinfo')]

theorem not_mem_componentTargets {tables : ComponentTables} {key kind attr : String} :
    (Owner.trigger key kind, attr) ∉ componentTargets tables := by
  intro hmem
  obtain ⟨_, _, x, -, -, howner⟩ := mem_componentTargets.1 hmem
  cases howner

theorem targets_nodup {s : Store} (h : s.Legible c) : (targets s).Nodup := by
  have hlocal {key x} (hx : s.trigger? key = some x) : x.components = s.componentsAt (some key) := by
    simp [Store.componentsAt, hx]
  rw [targets, List.nodup_append']
  refine ⟨componentTargets_nodup h.coherent none, nodup_flatMap_values ?_ ?_, ?_⟩
  · intro key x hx
    rw [triggerTargets, List.nodup_append', hlocal hx]
    refine ⟨componentTargets_nodup h.coherent _,
      List.Nodup.map (fun _ _ hsame => (Prod.ext_iff.1 hsame).2) x.attributes.keys_nodup, ?_⟩
    intro b hb hb'
    obtain ⟨attr, -, rfl⟩ := List.mem_map.1 hb'
    exact not_mem_componentTargets hb
  · intro key key' x y b hx hy hb hb'
    rcases (mem_triggerTargets hx (h.key_eq hx)).1 hb with hb | ⟨attr, -, rfl⟩
    · rcases (mem_triggerTargets hy (h.key_eq hy)).1 hb' with hb' | ⟨attr', -, rfl⟩
      · exact Option.some.inj (scope_eq_of_mem h.coherent hb hb')
      · exact absurd hb not_mem_componentTargets
    · rcases (mem_triggerTargets hy (h.key_eq hy)).1 hb' with hb' | ⟨attr', -, hsame⟩
      · exact absurd hb' not_mem_componentTargets
      · simp only [Prod.mk.injEq, Owner.trigger.injEq] at hsame
        exact hsame.1.1
  · intro b hb hb'
    obtain ⟨x, hx, hb'⟩ := List.mem_flatMap.1 hb'
    obtain ⟨key, hx⟩ := (Table.mem_values_iff ..).1 hx
    have hglobal : b ∈ componentTargets (s.componentsAt none) := hb
    rcases (mem_triggerTargets hx (h.key_eq hx)).1 hb' with hb' | ⟨attr, -, rfl⟩
    · cases scope_eq_of_mem h.coherent hglobal hb'
    · exact not_mem_componentTargets hb

/-- While lines are read, all that is open is there and every attribute can be read. -/
structure Founded (c : Catalog) (r : Reader) : Prop where
  housed : Housed r
  rooted : Rooted c (fun _ => True) r
  readable : r.store.Readable
  attr_reached : ∀ cursor, r.attr = some cursor → r.store.Reaches cursor.owner

theorem Founded.legible (h : Founded c r) : r.store.Legible c :=
  ⟨h.housed.coherent, h.rooted.headed, h.readable⟩

theorem founded_start : Founded c start where
  housed := housed_start
  rooted := rooted_start
  readable owner attr cell h := by
    obtain ⟨a, ha, -⟩ := (kept_empty (c := c)).cells h
    exact ⟨a, ha⟩
  attr_reached := by simp [start]

theorem Founded.reaches (h : Founded c r) : AllOpen r.store.Reaches r where
  frame := h.rooted.present.frame
  trigger := h.rooted.present.trigger
  component cursor hcursor := ⟨r.home, h.housed.component_home cursor hcursor⟩
  attr := h.attr_reached

theorem Founded.effect (h : Founded c r) (heffect : Effect c strict r kind t) :
    t.Readable ∧ ∀ {who}, r.store.Reaches who → t.Reaches who := by
  have hcomponents {name kind'} (hwho : r.store.Reaches (.component name kind')) :
      t.Reaches (.component name kind') := by
    obtain ⟨scope, x, hx⟩ := hwho
    exact ⟨scope, heffect.componentAt?_some hx⟩
  have hreaches : ∀ {who}, r.store.Reaches who → t.Reaches who := by
    intro who hwho
    cases who with
    | component name kind' => exact hcomponents hwho
    | trigger key kind' =>
        have hpresent : t.Present (.trigger key kind') :=
          (heffect.headed h.rooted.present h.rooted.headed).2 hwho
        exact hpresent
  refine ⟨?_, hreaches⟩
  cases heffect with
  | unchanged => exact h.readable
  | declared name value range => exact h.readable.grows (Store.grows_addVariable ..)
  | overridden frame name value hscope =>
      have hhome : r.home = some frame.key := by rw [home, hscope, Option.map_some]
      obtain ⟨x, hx⟩ := present_home h.rooted.present hhome
      exact h.readable.grows (Store.grows_setOverride hx name value)
  | entered frame hheader =>
      intro owner attr cell hcell
      exact h.readable owner attr cell hcell.of_declareTrigger
  | added kind name _ =>
      exact h.readable.grows (Store.grows_addComponent (fun _ => present_home h.rooted.present) kind name)
  | assigned who attr text howner =>
      exact h.readable.write h.housed.coherent (h.reaches.owner howner) attr _
  | modulated cursor name hattr =>
      exact h.readable.write h.housed.coherent (h.attr_reached cursor hattr) cursor.name _

theorem Founded.settle (h : Founded c r) (indent : Nat) : Founded c (r.settle indent) where
  housed := h.housed.settle indent
  rooted := h.rooted.settle indent
  readable := by
    rw [store_settle]
    exact h.readable
  attr_reached := by
    rw [store_settle]
    exact (h.reaches.settle indent).attr

theorem Founded.next (h : Founded c r) : Founded c { r with line := r.line + 1 } where
  housed := ⟨h.housed.coherent, h.housed.component_home⟩
  rooted := ⟨h.rooted.headed, fun _ => trivial, ⟨h.rooted.present.frame, h.rooted.present.trigger,
    h.rooted.present.component, h.rooted.present.attr⟩⟩
  readable := h.readable
  attr_reached := h.attr_reached

theorem Founded.ready (h : Founded c r) (line : List Char) : Founded c (r.ready line) :=
  h.next.settle (indentOf line)

theorem Founded.step (h : Founded c r) (line : List Char) : Founded c (r.step c strict line) := by
  have hrooted : Rooted c (fun _ => True) (r.step c strict line) := h.rooted.step fun _ => trivial
  cases hpasses : r.passes line with
  | true =>
      rw [step_of_passes hpasses]
      exact h.next
  | false =>
      have hready : Founded c (r.ready line) := h.ready line
      have heffect := @effect_dispatch c strict (r.ready line) (indentOf line) (strip line)
      have hopens : Opens (r.ready line) ((r.ready line).dispatch c strict (indentOf line) (strip line))
          ((r.ready line).eventOf c (indentOf line) (strip line)) := opens_dispatch ..
      have hhoused : Housed (r.step c strict line) := h.housed.step line
      rw [step_of_not_passes hpasses] at hrooted hhoused ⊢
      obtain ⟨hreadable, hreaches⟩ := hready.effect heffect
      refine ⟨hhoused, hrooted, hreadable, ?_⟩
      refine ((hready.reaches.mono hreaches).of_opens hopens ?_ ?_).attr
      · intro frame hframe
        rw [hframe] at hopens
        cases hopens with
        | trigger _ _ _ _ _ hstore =>
            rw [hstore, Store.Reaches, Store.head?_declareTrigger, if_pos rfl]
            rfl
      · intro cursor hcursor
        rw [hcursor] at hopens
        cases hopens with
        | component _ _ _ _ _ _ hstored => exact ⟨_, hstored⟩

theorem founded_readLines (c : Catalog) (strict : Bool) (lines : List (List Char)) :
    Founded c (readLines c strict start lines) :=
  readLines_keeps (fun line h => h.step line) lines founded_start

end Reader

end Document

end Instrument
