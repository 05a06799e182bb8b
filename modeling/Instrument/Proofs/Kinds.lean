import Instrument.Proofs.Integrity
import Instrument.Proofs.SecondPass
import Mathlib.Data.List.TakeWhile

namespace Instrument

namespace Text

theorem firstWord_fst_cutAtSpace (cs : List Char) :
    firstWord (cutAtSpace (strip cs)).1 = firstWord (strip cs) := by
  obtain hnil | ⟨c, rest, hcons, hblank⟩ := strip_cases cs
  · rw [hnil]
    rfl
  · have hspace : c ≠ ' ' := by
      rintro rfl
      exact absurd hblank (by decide)
    have hboth : ∀ x : Char, decide ((!isBlank x) = true ∧ (x != ' ') = true) = !isBlank x := by
      intro x
      by_cases h : x = ' '
      · subst h
        decide
      · simp [h]
    rw [hcons, fst_cutAtSpace, firstWord, firstWord, stripStart, stripStart,
      List.takeWhile_cons_of_pos (by simpa using hspace), List.dropWhile_cons_of_neg (by simp [hblank]),
      List.dropWhile_cons_of_neg (by simp [hblank]), ← List.takeWhile_cons_of_pos (by simpa using hspace),
      List.takeWhile_takeWhile]
    simp only [hboth]

theorem firstWord_of_no_blank {cs : List Char} (h : ∀ c ∈ cs, isBlank c = false) : firstWord cs = cs := by
  have hstart : stripStart cs = cs := by
    cases cs with
    | nil => rfl
    | cons c rest => exact List.dropWhile_cons_of_neg (by simp [h c (List.mem_cons_self ..)])
  rw [firstWord, hstart, List.takeWhile_eq_self_iff]
  intro x hx
  simp [h x hx]

end Text

namespace Store

variable {s t : Store} {key : String}

def head? (s : Store) (key : String) : Option (String × String) :=
  (s.trigger? key).map fun x => (x.key, x.kind)

def Present (s : Store) : Owner → Prop
  | .component _ _ => True
  | .trigger key _ => (s.head? key).isSome

theorem Present.congr {who : Owner} (h : s.Present who) (hsame : ∀ key, t.head? key = s.head? key) :
    t.Present who := by
  cases who with
  | component name kind => trivial
  | trigger key kind =>
      rw [Present, hsame]
      exact h

theorem head?_changeTrigger {f : Trigger → Trigger}
    (hf : ∀ x, (f x).key = x.key ∧ (f x).kind = x.kind) (hpresent : (s.head? key).isSome)
    (other : String) : (s.changeTrigger key f).head? other = s.head? other := by
  rw [head?, trigger?_changeTrigger]
  split
  · next heq =>
      subst heq
      rw [head?, Option.isSome_map, Option.isSome_iff_exists] at hpresent
      obtain ⟨x, hx⟩ := hpresent
      rw [head?, triggerOrFresh, hx]
      simp [hf x]
  · rfl

theorem head?_updateComponent (s : Store) (name attr : String) (f : Cell → Except DatumError Cell)
    (key : String) : (s.updateComponent name attr f).store.head? key = s.head? key := by
  rw [updateComponent]
  split
  · rfl
  · split
    · rfl
    · next cell _ =>
        obtain ⟨g, hg, htrigger⟩ := s.trigger?_changeComponent name key (·.setCell attr cell)
        rw [Outcome.store_done, head?, htrigger, Option.map_map, head?]
        congr 1
        funext x
        simp [hg x]

theorem head?_updateTrigger {attr : String} {f : Cell → Except DatumError Cell}
    (hpresent : (s.head? key).isSome) (other : String) :
    (s.updateTrigger key attr f).store.head? other = s.head? other := by
  simp only [updateTrigger]
  split
  · exact head?_changeTrigger (f := id) (fun _ => ⟨rfl, rfl⟩) hpresent other
  · next cell _ =>
      exact head?_changeTrigger (f := (·.setCell attr cell)) (fun _ => ⟨rfl, rfl⟩) hpresent other

theorem head?_write {who : Owner} (hpresent : s.Present who) (attr : String) (a : Attribute)
    (key : String) : (s.write who attr a).head? key = s.head? key := by
  cases who with
  | component name kind => simp only [write, updateComponentAttribute, updateComponentModulation,
      head?_updateComponent]
  | trigger key' kind =>
      have hfirst : ∀ other, (s.setTriggerAttribute key' attr (Value.given a.value)).store.head? other
          = s.head? other := head?_updateTrigger hpresent
      have hpresent' : (s.setTriggerAttribute key' attr (Value.given a.value)).store.Present
          (.trigger key' kind) := hpresent.congr hfirst
      exact (head?_updateTrigger hpresent' key).trans (hfirst key)

theorem Grows.head?_eq (h : s.Grows t) (key : String) : t.head? key = s.head? key := by
  cases hs : s.trigger? key with
  | none =>
      cases ht : t.trigger? key with
      | none => rw [head?, head?, hs, ht]
      | some x =>
          obtain ⟨y, hy, -⟩ := h.trigger? ht
          rw [hs] at hy
          cases hy
  | some y =>
      have hknown : s.Knows (.trigger key y.kind) := ⟨y, hs, rfl⟩
      obtain ⟨x, hx, -⟩ := h.knows hknown
      obtain ⟨y', hy', hkey, hkind⟩ := h.trigger? hx
      obtain rfl := Option.some.inj (hs.symm.trans hy')
      simp [head?, hs, hx, hkey, hkind]

theorem Keeps.componentAt?_old (h : Keeps s t) {scope : Option String} {kind name : String}
    {c : Component} (hc : t.componentAt? scope kind name = some c) :
    ∃ c', s.componentAt? scope kind name = some c' := by
  obtain ⟨f, -, hf⟩ := h.componentAt?_eq scope kind name
  rw [hf] at hc
  obtain ⟨c', hc', -⟩ := Option.map_eq_some_iff.1 hc
  exact ⟨c', hc'⟩

def Headed (c : Catalog) (s : Store) : Prop :=
  ∀ key head, s.head? key = some head → head.1 = key ∧ c.isTriggerKind head.2 = true

variable {c : Catalog}

theorem Headed.congr (h : s.Headed c) (hsame : ∀ key, t.head? key = s.head? key) : t.Headed c := by
  intro key head hhead
  rw [hsame] at hhead
  exact h key head hhead

theorem head?_declareTrigger (s : Store) (key kind other : String) :
    (s.declareTrigger key kind).head? other =
      if other = key then
        some ((s.head? key).getD ((freshTrigger key kind).key, (freshTrigger key kind).kind))
      else s.head? other := by
  rw [head?, trigger?_declareTrigger]
  split
  · rw [triggerOrFresh, head?]
    cases s.trigger? key <;> rfl
  · rfl

end Store

namespace Document

open Text

namespace Reader

variable {c : Catalog} {strict : Bool} {r : Reader} {kind : LineKind} {t : Store} {p : String → Prop}

theorem present_declareTrigger {s : Store} {who : Owner} (h : s.Present who) (key kind : String) :
    (s.declareTrigger key kind).Present who := by
  cases who with
  | component name kind' => trivial
  | trigger key' kind' =>
      rw [Store.Present, Store.head?_declareTrigger]
      split
      · rfl
      · exact h

theorem headed_declareTrigger {s : Store} (h : s.Headed c) {kind : String} {name : Option String}
    (hkind : c.isTriggerKind kind = true) :
    (s.declareTrigger (makeScopeKey kind name) kind).Headed c := by
  intro key head hhead
  rw [Store.head?_declareTrigger] at hhead
  split at hhead
  · next heq =>
      subst heq
      cases hfound : s.head? (makeScopeKey kind name) with
      | none =>
          rw [hfound, Option.getD_none, kind_freshTrigger] at hhead
          rw [← Option.some.inj hhead]
          exact ⟨rfl, hkind⟩
      | some found =>
          rw [hfound, Option.getD_some] at hhead
          rw [← Option.some.inj hhead]
          exact h _ found hfound
  · exact h key head hhead

theorem present_home (h : AllOpen r.store.Present r) {key : String} (hhome : r.home = some key) :
    ∃ x, r.store.trigger? key = some x := by
  rw [home, Option.map_eq_some_iff] at hhome
  obtain ⟨frame, hscope, rfl⟩ := hhome
  have hpresent : (r.store.head? frame.key).isSome := h.scope hscope
  rwa [Store.head?, Option.isSome_map, Option.isSome_iff_exists] at hpresent

theorem Effect.head?_eq (h : Effect c strict r kind t) (hkind : kind ≠ .trigger)
    (hopen : AllOpen r.store.Present r) (key : String) : t.head? key = r.store.head? key := by
  cases h with
  | unchanged => rfl
  | declared name value range => exact (Store.grows_addVariable ..).head?_eq key
  | overridden frame name value hscope =>
      have hhome : r.home = some frame.key := by rw [home, hscope, Option.map_some]
      obtain ⟨x, hx⟩ := present_home hopen hhome
      exact (Store.grows_setOverride hx name value).head?_eq key
  | entered frame hheader => exact absurd rfl hkind
  | added kind name _ =>
      exact (Store.grows_addComponent (fun _ => present_home hopen) kind name).head?_eq key
  | assigned who attr text howner => exact Store.head?_write (hopen.owner howner) ..
  | modulated cursor name hattr => exact Store.head?_write (hopen.attr cursor hattr) ..

theorem Effect.headed (h : Effect c strict r kind t) (hopen : AllOpen r.store.Present r)
    (hheaded : r.store.Headed c) :
    t.Headed c ∧ ∀ {who}, r.store.Present who → t.Present who := by
  by_cases hkind : kind = .trigger
  · subst hkind
    cases h with
    | unchanged => exact ⟨hheaded, fun hwho => hwho⟩
    | entered frame hheader =>
        obtain ⟨name, hheader, hkey⟩ := hheader
        refine ⟨?_, fun hwho => present_declareTrigger hwho ..⟩
        rw [hkey]
        exact headed_declareTrigger hheaded (isTriggerKind_of_takesHeader hheader)
  · have hsame := h.head?_eq hkind hopen
    exact ⟨hheaded.congr hsame, fun hwho => hwho.congr hsame⟩

theorem Effect.componentAt?_old (h : Effect c strict r kind t) (hkind : kind ≠ .component)
    {scope : Option String} {k name : String} {x : Component}
    (hx : t.componentAt? scope k name = some x) :
    ∃ y, r.store.componentAt? scope k name = some y := by
  cases h with
  | unchanged => exact ⟨x, hx⟩
  | declared name' value range => exact ⟨x, (Store.componentAt?_addVariable ..).symm.trans hx⟩
  | overridden frame name' value hscope => exact (Store.keeps_setOverride ..).componentAt?_old hx
  | entered frame hheader => exact (Store.keeps_declareTrigger ..).componentAt?_old hx
  | added kind name' _ => exact absurd rfl hkind
  | assigned who attr text howner => exact (Store.keeps_write ..).componentAt?_old hx
  | modulated cursor name' hattr => exact (Store.keeps_write ..).componentAt?_old hx

theorem isComponentKind_of_classify {indent : Nat} {word : String}
    (h : r.classify c indent word = .component) : c.isComponentKind word = true := by
  rw [classify] at h
  repeat' split at h
  all_goals first | contradiction | assumption

theorem componentAt?_openComponent {indent : Nat} {content : List Char} {scope : Option String}
    {k name : String} {x : Component}
    (hx : (r.openComponent c indent content).store.componentAt? scope k name = some x) :
    k = (Header.ofContent content).word ∨ ∃ y, r.store.componentAt? scope k name = some y := by
  obtain ⟨-, h⟩ | ⟨told, complaint, htold, h⟩ := openComponent_cases c indent content r
  · rw [h] at hx
    obtain ⟨-, hstore⟩ | ⟨-, -, hstore⟩ := Store.addComponent_bare r.store
      (headerComponent indent content).kind (headerComponent indent content).name r.home
    · rw [follow, addHere, hstore] at hx
      exact .inr ⟨x, hx⟩
    · simp only [follow, addHere, hstore] at hx
      rw [Store.componentAt?_placeComponent, Store.componentAt?_withName] at hx
      split at hx
      · next heq => exact .inl heq.2.1
      · exact .inr ⟨x, hx⟩
  · rw [h] at hx
    rcases htold with rfl | ⟨outcome, hstore, rfl⟩
    · exact .inr ⟨x, hx⟩
    · have hsame : ((r.follow outcome).refuse indent complaint).store = r.store := hstore
      rw [hsame] at hx
      exact .inr ⟨x, hx⟩

theorem present_of_mem_targets {s : Store} (h : s.Headed c) {target : Owner × String}
    (htarget : target ∈ targets s) : s.Present target.1 := by
  have hcomponent {tables : ComponentTables} (hmem : target ∈ componentTargets tables) :
      s.Present target.1 := by
    obtain ⟨_, _, x, -, -, howner⟩ := mem_componentTargets.1 hmem
    rw [howner]
    trivial
  rw [targets, List.mem_append, List.mem_flatMap] at htarget
  rcases htarget with hglobal | ⟨x, hx, hmem⟩
  · exact hcomponent hglobal
  · obtain ⟨key, hx⟩ := (Table.mem_values_iff ..).1 hx
    rw [triggerTargets, List.mem_append, List.mem_map] at hmem
    rcases hmem with hlocal | ⟨attr, -, rfl⟩
    · exact hcomponent hlocal
    · have hhead : s.head? key = some (x.key, x.kind) := by rw [Store.head?, Store.trigger?, hx, Option.map_some]
      have hkey : x.key = key := (h key _ hhead).1
      rw [Store.Present, hkey, hhead]
      rfl

/-- While lines are read, what is open is there, and the components are of kinds with a property. -/
structure Rooted (c : Catalog) (p : String → Prop) (r : Reader) : Prop where
  headed : r.store.Headed c
  kinds : ∀ {scope kind name x}, r.store.componentAt? scope kind name = some x → p kind
  present : AllOpen r.store.Present r

theorem rooted_start : Rooted c p start where
  headed key head h := by simp [start, Store.head?, Store.empty, Store.trigger?] at h
  kinds {scope _ _ _} h := by
    cases scope <;>
      simp [start, Store.componentAt?, Store.componentsAt, Store.empty, Store.trigger?] at h
  present := allOpen_start

theorem Rooted.settle (h : Rooted c p r) (indent : Nat) : Rooted c p (r.settle indent) where
  headed := by
    rw [store_settle]
    exact h.headed
  kinds := by
    rw [store_settle]
    exact h.kinds
  present := by
    rw [store_settle]
    exact h.present.settle indent

theorem Rooted.dispatch (h : Rooted c p (r.settle indent)) {content : List Char}
    (hline : c.isComponentKind (String.ofList (firstWord content)) = true →
      p (Header.ofContent content).word) :
    Rooted c p ((r.settle indent).dispatch c strict indent content) := by
  have heffect := @effect_dispatch c strict (r.settle indent) indent content
  have hopens := @opens_dispatch c strict indent content r
  obtain ⟨hheaded, hpresent⟩ := heffect.headed h.present h.headed
  refine ⟨hheaded, ?_, ?_⟩
  · intro scope kind name x hx
    by_cases hkind : (r.settle indent).classify c indent (String.ofList (firstWord content)) = .component
    · rw [Reader.dispatch, hkind] at hx
      obtain rfl | ⟨y, hy⟩ := componentAt?_openComponent hx
      · exact hline (isComponentKind_of_classify hkind)
      · exact h.kinds hy
    · obtain ⟨y, hy⟩ := heffect.componentAt?_old hkind hx
      exact h.kinds hy
  · refine (h.present.mono hpresent).of_opens hopens ?_ fun _ _ => trivial
    intro frame hframe
    rw [hframe] at hopens
    cases hopens with
    | trigger _ _ _ _ _ hstore =>
        rw [hstore, Store.Present, Store.head?_declareTrigger, if_pos rfl]
        rfl

theorem Rooted.step (h : Rooted c p r) {line : List Char}
    (hline : c.isComponentKind (String.ofList (firstWord (strip line))) = true →
      p (Header.ofContent (strip line)).word) : Rooted c p (r.step c strict line) := by
  have hnext : Rooted c p { r with line := r.line + 1 } :=
    ⟨h.headed, h.kinds, ⟨h.present.frame, h.present.trigger, h.present.component, h.present.attr⟩⟩
  cases hpasses : r.passes line with
  | true =>
      rw [step_of_passes hpasses]
      exact hnext
  | false =>
      rw [step_of_not_passes hpasses]
      exact (hnext.settle (indentOf line)).dispatch hline

theorem rooted_readLines {lines : List (List Char)}
    (hlines : ∀ line ∈ lines, c.isComponentKind (String.ofList (firstWord (strip line))) = true →
      p (Header.ofContent (strip line)).word) :
    ∀ {r}, Rooted c p r → Rooted c p (readLines c strict r lines) := by
  induction lines with
  | nil =>
      intro r h
      exact h
  | cons line rest ih =>
      intro r h
      obtain ⟨hline, hrest⟩ := List.forall_mem_cons.1 hlines
      exact ih hrest (h.step hline)

theorem Rooted.keeps_conclude (h : Rooted c p r) (strict : Bool) :
    Store.Keeps r.store (r.conclude c strict).store ∧
      ∀ key, (r.conclude c strict).store.head? key = r.store.head? key := by
  refine conclude_induction (p := fun s => Store.Keeps r.store s ∧ ∀ key, s.head? key = r.store.head? key)
    c strict ⟨.refl _, fun _ => rfl⟩ ?_
  rintro s target a htarget ⟨hkeeps, hheads⟩
  have hpresent : s.Present target.1 := (present_of_mem_targets h.headed htarget).congr hheads
  exact ⟨hkeeps.trans (s.keeps_write ..), fun key => (Store.head?_write hpresent ..).trans (hheads key)⟩

theorem Rooted.conclude (h : Rooted c p r) (strict : Bool) :
    (r.conclude c strict).store.Headed c ∧ Store.Keeps r.store (r.conclude c strict).store := by
  obtain ⟨hkeeps, hheads⟩ := h.keeps_conclude strict
  exact ⟨h.headed.congr hheads, hkeeps⟩

end Reader

/-- Every trigger that a document leaves in the store is of a kind of the catalog. The kind of a
component begins with a word that is a kind of component in the catalog, and is itself one unless there
is a blank in it. There is none in a document where spaces alone end the first word of each line. -/
theorem kinds_begin_in_catalog (c : Catalog) (strict : Bool) (text : String) :
    (∀ key x, (read c strict text).store.trigger? key = some x → c.isTriggerKind x.kind = true) ∧
    (∀ scope kind name x, (read c strict text).store.componentAt? scope kind name = some x →
      x.kind = kind ∧ c.isComponentKind (String.ofList (firstWord kind.toList)) = true ∧
      ((∀ ch ∈ kind.toList, isBlank ch = false) → c.isComponentKind kind = true)) ∧
    ((∀ line ∈ Text.lines text.toList, ∀ ch ∈ (cutAtSpace (strip line)).1, isBlank ch = false) →
      ∀ scope kind name x, (read c strict text).store.componentAt? scope kind name = some x →
        c.isComponentKind kind = true) := by
  have hbegins : Reader.Rooted c (fun kind => c.isComponentKind (String.ofList (firstWord kind.toList)) = true)
      (readLines c strict .start (Text.lines text.toList)) := by
    refine Reader.rooted_readLines ?_ Reader.rooted_start
    intro line _ hword
    rw [Header.ofContent, String.toList_ofList, firstWord_fst_cutAtSpace]
    exact hword
  obtain ⟨hheaded, hkeeps⟩ := hbegins.conclude strict
  have hcoherent : (read c strict text).store.Coherent :=
    hkeeps.coherent (Reader.housed_readLines c strict _).coherent
  refine ⟨?_, ?_, ?_⟩
  · intro key x hx
    have hhead : (read c strict text).store.head? key = some (x.key, x.kind) := by
      rw [Store.head?, hx, Option.map_some]
    exact (hheaded key _ hhead).2
  · intro scope kind name x hx
    obtain ⟨y, hy⟩ := hkeeps.componentAt?_old hx
    have hword := hbegins.kinds hy
    refine ⟨(hcoherent.component_fits hx).kind_eq, hword, ?_⟩
    intro hblank
    rw [firstWord_of_no_blank hblank, String.ofList_toList] at hword
    exact hword
  · intro hlines scope kind name x hx
    have hkinds : Reader.Rooted c (c.isComponentKind · = true)
        (readLines c strict .start (Text.lines text.toList)) := by
      refine Reader.rooted_readLines ?_ Reader.rooted_start
      intro line hline hword
      rw [← firstWord_fst_cutAtSpace, firstWord_of_no_blank (hlines line hline)] at hword
      exact hword
    obtain ⟨y, hy⟩ := hkeeps.componentAt?_old hx
    exact hkinds.kinds hy

def oscCatalog : Catalog := ⟨.ofList [("osc", ⟨"osc", .source, .empty, .null⟩)], .empty, .empty⟩

/-- A tab after the first word ends it, but is taken for a part of the kind. -/
theorem kind_not_always_in_catalog :
    ¬∀ scope kind name x,
      (read oscCatalog false "osc\t lead").store.componentAt? scope kind name = some x →
        oscCatalog.isComponentKind x.kind = true := by
  intro hkinds
  have hstored : ((read oscCatalog false "osc\t lead").store.componentAt? none "osc\t" "lead").map
      (·.kind) = some "osc\t" := by
    decide +kernel
  obtain ⟨x, hx, hkind⟩ := Option.map_eq_some_iff.1 hstored
  have hlisted := hkinds _ _ _ _ hx
  rw [hkind] at hlisted
  exact absurd hlisted (by decide +kernel)

end Document

end Instrument
