import Instrument.Proofs.Cells
import Instrument.Proofs.Confined

namespace Instrument.Store

theorem overlayTable_agreeing {known : String → Option Component} {base : Table Component}
    {entries : List (String × Component)} (scope : Option String)
    (hbase : ∀ name c, base.get? name = some c → known name = some c)
    (hentries : ∀ name c, (name, c) ∈ entries → known name = some c) :
    (overlayTable scope base entries).notes = [] ∧
      ∀ name c, (overlayTable scope base entries).value.get? name = some c ↔
        base.get? name = some c ∨ (name, c) ∈ entries := by
  induction entries generalizing base with
  | nil => exact ⟨rfl, fun name c => by simp [overlayTable]⟩
  | cons entry rest ih =>
      obtain ⟨first, d⟩ := entry
      have hfirst : known first = some d := hentries first d List.mem_cons_self
      have hsame : ((base.get? first).any fun other => !other.isSame d) = false := by
        rw [Option.any_eq_false_iff_get]
        intro hsome
        have hother := hbase first _ (Option.some_get hsome).symm
        rw [Option.some.inj (hother.symm.trans hfirst)]
        simp [Component.isSame]
      have hget (name : String) (c : Component) :
          (base.insert first d).get? name = some c ↔
            base.get? name = some c ∨ (name, c) = (first, d) := by
        rw [Table.get?_insert]
        by_cases h : name = first
        · subst h
          have hbefore : base.get? name = some c → c = d := fun hc =>
            Option.some.inj ((hbase name c hc).symm.trans hfirst)
          simp only [if_true, Option.some.injEq, Prod.mk.injEq, true_and]
          exact ⟨fun heq => .inr heq.symm, fun hor => hor.elim (fun hc => (hbefore hc).symm) Eq.symm⟩
        · simp [h]
      have hnext (name : String) (c : Component) (hc : (base.insert first d).get? name = some c) :
          known name = some c := by
        rcases (hget name c).1 hc with hc | heq
        · exact hbase name c hc
        · obtain ⟨rfl, rfl⟩ := Prod.mk.inj heq
          exact hfirst
      obtain ⟨hnotes, hvalue⟩ := ih hnext fun name c hc =>
        hentries name c (List.mem_cons_of_mem _ hc)
      simp only [overlayTable, hsame, Bool.false_eq_true, if_false]
      refine ⟨hnotes, ?_⟩
      intro name c
      rw [hvalue, hget, or_assoc, List.mem_cons]

theorem overlay_agreeing {known : String → Option Component} {base : ComponentTables}
    {entries : List (String × Table Component)} (scope : Option String)
    (hbase : ∀ kind name c, base.find? kind name = some c → known name = some c)
    (hentries : ∀ kind table, (kind, table) ∈ entries →
      ∀ name c, table.get? name = some c → known name = some c) :
    (overlay scope base entries).notes = [] ∧
      ∀ kind name c, (overlay scope base entries).value.find? kind name = some c ↔
        base.find? kind name = some c ∨
          ∃ table, (kind, table) ∈ entries ∧ table.get? name = some c := by
  induction entries generalizing base with
  | nil => exact ⟨rfl, fun kind name c => by simp [overlay]⟩
  | cons entry rest ih =>
      obtain ⟨first, table⟩ := entry
      have htable := hentries first table List.mem_cons_self
      have hlisted (name : String) (c : Component) (hc : (name, c) ∈ table.entries) :
          known name = some c := htable name c ((Table.get?_eq_some_iff ..).2 hc)
      obtain ⟨hlaid, hget⟩ := overlayTable_agreeing scope
        (fun name c hc => hbase first name c (by rwa [ComponentTables.get?_ofKind] at hc)) hlisted
      generalize hover : overlayTable scope (ComponentTables.ofKind base first) table.entries = laid
        at hlaid hget
      have hfind (kind name : String) (c : Component) :
          ComponentTables.find? (base.insert first laid.value) kind name = some c ↔
            base.find? kind name = some c ∨ kind = first ∧ table.get? name = some c := by
        rw [ComponentTables.find?, Table.get?_insert]
        by_cases h : kind = first
        · subst h
          simp only [if_true, Option.bind_some, true_and]
          rw [hget, ComponentTables.get?_ofKind, Table.get?_eq_some_iff]
        · simp [h, ComponentTables.find?]
      have hnext (kind name : String) (c : Component)
          (hc : ComponentTables.find? (base.insert first laid.value) kind name = some c) :
          known name = some c :=
        ((hfind kind name c).1 hc).elim (hbase kind name c) fun h => htable name c h.2
      obtain ⟨hnotes, hvalue⟩ := ih hnext fun kind table' hmem =>
        hentries kind table' (List.mem_cons_of_mem _ hmem)
      simp only [overlay, hover]
      refine ⟨by simp [hlaid, hnotes], ?_⟩
      intro kind name c
      rw [Noted.value_bind, hvalue, hfind, or_assoc]
      refine or_congr_right ⟨?_, ?_⟩
      · rintro (⟨rfl, hc⟩ | ⟨table', hmem, hc⟩)
        · exact ⟨table, List.mem_cons_self, hc⟩
        · exact ⟨table', List.mem_cons_of_mem _ hmem, hc⟩
      · rintro ⟨table', hmem, hc⟩
        rcases List.mem_cons.1 hmem with heq | hmem
        · obtain ⟨rfl, rfl⟩ := Prod.mk.inj heq
          exact .inl ⟨rfl, hc⟩
        · exact .inr ⟨table', hmem, hc⟩

variable {s : Store}

/-- Every component in the tables is the one that the store has under its name. -/
def Draws (s : Store) (tables : ComponentTables) : Prop :=
  ∀ kind name c, tables.find? kind name = some c → s.component? name = some c

theorem Coherent.overlayTrigger (hs : s.Coherent) (key : Option String) {base : ComponentTables}
    (hbase : s.Draws base) :
    (s.overlayTrigger key base).notes = [] ∧
      ∀ kind name c, (s.overlayTrigger key base).value.find? kind name = some c ↔
        base.find? kind name = some c ∨
          s.componentAt? (some (key.getD "")) kind name = some c := by
  rw [Store.overlayTrigger]
  cases ht : s.trigger? (key.getD "") with
  | none => exact ⟨rfl, fun kind name c => by simp [componentAt?, componentsAt, ht]⟩
  | some t =>
      have hat (kind name : String) :
          s.componentAt? (some (key.getD "")) kind name = t.components.find? kind name := by
        simp [componentAt?, componentsAt, ht]
      have hentry (kind name : String) (c : Component) :
          t.components.find? kind name = some c ↔
            ∃ table, (kind, table) ∈ t.components.entries ∧ table.get? name = some c := by
        simp only [ComponentTables.find?, Option.bind_eq_some_iff, Table.get?_eq_some_iff]
      have hstored (kind : String) (table : Table Component)
          (hmem : (kind, table) ∈ t.components.entries) (name : String) (c : Component)
          (hc : table.get? name = some c) : s.component? name = some c :=
        hs.component?_eq_some ((hat kind name).trans ((hentry kind name c).2 ⟨table, hmem, hc⟩))
      obtain ⟨hnotes, hvalue⟩ := overlay_agreeing key hbase hstored
      refine ⟨hnotes, ?_⟩
      intro kind name c
      rw [hvalue, hat, hentry]

theorem Coherent.draws (hs : s.Coherent) {tables : ComponentTables} {scopes : List (Option String)}
    (h : ∀ kind name c, tables.find? kind name = some c →
      ∃ scope ∈ scopes, s.componentAt? scope kind name = some c) : s.Draws tables := by
  intro kind name c hc
  obtain ⟨scope, -, hat⟩ := h kind name c hc
  exact hs.component?_eq_some hat

theorem Reached.componentAt?_bare (h : s.Reached) (kind name : String) :
    s.componentAt? (some "") kind name = none := by
  induction h with
  | fresh => rfl
  | @next s op answer hs hop hok ih =>
      generalize hstore : (op.run s).store = t
      cases hstore ▸ Operation.changes_of_ok hok with
      | clears => rfl
      | keeps hkeeps =>
          obtain ⟨f, -, hf⟩ := hkeeps.componentAt?_eq (some "") kind name
          rw [hf, ih, Option.map_none]
      | @adds _ _ _ key _ sc _ _ _ hkey _ _ hreplaces =>
          rw [hreplaces.componentAt?_eq, ih, if_neg]
          rintro ⟨hplace, -⟩
          injection hplace with hbare
          cases sc with
          | global => cases hbare
          | trigger =>
              rw [ScopeKind.home, Option.some.injEq] at hbare
              simp [ScopeKind.lacksKey, hbare] at hkey
      | declares _ _ _ _ hreplaces => rw [hreplaces.componentAt?_eq, if_neg (by simp), ih]
      | takes _ _ hreplaces => rw [hreplaces.componentAt?_eq, ih, ite_self]

/-- The scopes whose components a voice has: the global one, that of its note, and that of its key
where it has one. -/
def voiceScopes (noteKey : String) (keyKey : Option String) : List (Option String) :=
  none :: some noteKey :: keyKey.toList.map some

theorem Coherent.componentsIn_trigger (hs : s.Coherent) (noteKey : String) :
    (s.componentsIn .trigger (some noteKey)).notes = [] ∧
      ∀ kind name c, (s.componentsIn .trigger (some noteKey)).value.find? kind name = some c ↔
        ∃ scope ∈ voiceScopes noteKey none, s.componentAt? scope kind name = some c := by
  have hglobal : s.Draws s.components := hs.draws fun kind name c hc =>
    (⟨none, by simp, hc⟩ : ∃ scope ∈ [none], s.componentAt? scope kind name = some c)
  obtain ⟨hnotes, hvalue⟩ := hs.overlayTrigger (some noteKey) hglobal
  refine ⟨hnotes, ?_⟩
  intro kind name c
  rw [componentsIn, hvalue]
  simp [voiceScopes, componentAt?, componentsAt]

theorem Reached.voiceComponents (h : s.Reached) (noteKey : String) (keyKey : Option String) :
    (s.voiceComponents noteKey keyKey).notes = [] ∧
      ∀ kind name c, (s.voiceComponents noteKey keyKey).value.find? kind name = some c ↔
        ∃ scope ∈ voiceScopes noteKey keyKey, s.componentAt? scope kind name = some c := by
  have hs := h.coherent
  obtain ⟨hnotes, hvalue⟩ := hs.componentsIn_trigger noteKey
  have hscopes (key kind name : String) (c : Component) :
      (∃ scope ∈ voiceScopes noteKey (some key), s.componentAt? scope kind name = some c) ↔
        (∃ scope ∈ voiceScopes noteKey none, s.componentAt? scope kind name = some c) ∨
          s.componentAt? (some key) kind name = some c := by
    simp [voiceScopes, or_assoc]
  cases keyKey with
  | none => exact ⟨by simp [Store.voiceComponents, hnotes], fun kind name c => by
      simp [Store.voiceComponents, hvalue]⟩
  | some key =>
      simp only [hscopes]
      by_cases hkey : key = ""
      · subst hkey
        refine ⟨by simp [Store.voiceComponents, hnotes], ?_⟩
        intro kind name c
        simp [Store.voiceComponents, hvalue, h.componentAt?_bare]
      · obtain ⟨hlaid, hover⟩ := hs.overlayTrigger (some key)
          (hs.draws fun kind name c hc => (hvalue kind name c).1 hc)
        refine ⟨by simp [Store.voiceComponents, hkey, hnotes, hlaid], ?_⟩
        intro kind name c
        simp only [Store.voiceComponents, hkey, if_false, Noted.value_bind, hover, hvalue,
          Option.getD_some]

/-- After any run of operations a voice sees a component under a kind and a name exactly if one lies
there in one of its scopes, and it is the component of that name. No name is seen under two kinds,
nothing is reported to be hidden, and without a key the voice sees what its note does. -/
theorem visible_iff_in_scope (h : s.Reached) (noteKey : String) (keyKey : Option String) :
    (∀ kind name, (∃ c, (s.voiceComponents noteKey keyKey).value.find? kind name = some c) ↔
      ∃ scope ∈ voiceScopes noteKey keyKey, ∃ c, s.componentAt? scope kind name = some c) ∧
    (∀ kind name c, (s.voiceComponents noteKey keyKey).value.find? kind name = some c →
      s.component? name = some c) ∧
    (∀ kind other name c d, (s.voiceComponents noteKey keyKey).value.find? kind name = some c →
      (s.voiceComponents noteKey keyKey).value.find? other name = some d → kind = other) ∧
    (s.voiceComponents noteKey keyKey).notes = [] ∧
    s.componentsIn .trigger (some noteKey) = s.voiceComponents noteKey none := by
  have hs := h.coherent
  obtain ⟨hnotes, hvalue⟩ := h.voiceComponents noteKey keyKey
  have hdraws := hs.draws fun kind name c hc => (hvalue kind name c).1 hc
  refine ⟨?_, hdraws, ?_, hnotes, ?_⟩
  · intro kind name
    constructor
    · rintro ⟨c, hc⟩
      obtain ⟨scope, hscope, hat⟩ := (hvalue kind name c).1 hc
      exact ⟨scope, hscope, c, hat⟩
    · rintro ⟨scope, hscope, c, hat⟩
      exact ⟨c, (hvalue kind name c).2 ⟨scope, hscope, hat⟩⟩
  · intro kind other name c d hc hd
    obtain ⟨scope, -, hat⟩ := (hvalue kind name c).1 hc
    obtain ⟨scope', -, hat'⟩ := (hvalue other name d).1 hd
    have hcd : c = d := Option.some.inj ((hdraws kind name c hc).symm.trans (hdraws other name d hd))
    rw [← (hs.component_fits hat).kind_eq, hcd, (hs.component_fits hat').kind_eq]
  · rw [Store.voiceComponents, bind_pure]

def layered : List Operation :=
  [.addComponent "lfo" "wobble" (.text "global") none [],
    .addComponent "lfo" "shimmer" (.text "trigger") (some "note_c4") [("rate", .number (.int 5))],
    .addComponent "adsr" "swell" (.text "trigger") (some "key_1") []]

theorem visible_layered :
    (empty.runAll layered).Reached ∧
      (∃ c, ((empty.runAll layered).voiceComponents "note_c4" (some "key_1")).value.find? "lfo"
        "shimmer" = some c) ∧
      (∃ c, ((empty.runAll layered).voiceComponents "note_c4" (some "key_1")).value.find? "adsr"
        "swell" = some c) ∧
      ¬ ∃ c, ((empty.runAll layered).voiceComponents "note_c4" (some "key_1")).value.find? "lfo"
        "swell" = some c := by
  have hreached : (empty.runAll layered).Reached :=
    .next (.addComponent ..) (.next (.addComponent ..) (.next (.addComponent ..) .fresh rfl rfl)
      rfl rfl) rfl rfl
  obtain ⟨hseen, -, hkinds, -⟩ := visible_iff_in_scope hreached "note_c4" (some "key_1")
  have hswell := (hseen "adsr" "swell").2 ⟨some "key_1", by simp [voiceScopes], _, rfl⟩
  refine ⟨hreached, (hseen "lfo" "shimmer").2 ⟨some "note_c4", by simp [voiceScopes], _, rfl⟩,
    hswell, ?_⟩
  rintro ⟨d, hd⟩
  obtain ⟨c, hc⟩ := hswell
  exact absurd (hkinds "adsr" "lfo" "swell" c d hc hd) (by decide)

end Instrument.Store
