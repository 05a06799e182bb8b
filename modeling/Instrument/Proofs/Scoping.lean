import Instrument.Proofs.Assignments
import Instrument.Proofs.SecondPass

namespace Instrument

theorem makeScopeKey_ne {kind : String} (h : kind ≠ "") (name : Option String) :
    makeScopeKey kind name ≠ "" := by
  cases name with
  | none => exact h
  | some name =>
      rw [makeScopeKey]
      split
      · exact h
      · intro hempty
        have hlength := congrArg String.length hempty
        simp [String.length_append] at hlength

namespace Store

variable {s t u : Store} {home : Option String} {name key : String} {value : Value}

def given? (s : Store) (home : Option String) (name : String) : Option (Option Value) :=
  match home with
  | none => (s.variableAt? none name).map (·.value)
  | some key => (s.override? name key).or ((s.variableAt? (some key) name).map (·.value))

theorem globalValue?_eq (s : Store) (name : String) :
    s.globalValue? name = (s.given? none name).join := by
  rw [given?, globalValue?, variableAt?, variablesAt]
  cases s.globalVariables.get? name <;> rfl

theorem local?_eq (s : Store) (name key : String) : s.local? name key = s.variableAt? (some key) name := by
  rw [local?, variableAt?, variablesAt]
  cases s.localVariables.get? key <;> rfl

theorem effective?_none (s : Store) (name : String) :
    s.effective? name none = (s.given? none name).join :=
  s.globalValue?_eq name

theorem effective?_blank (s : Store) (name : String) :
    s.effective? name (some "") = (s.given? none name).join :=
  s.globalValue?_eq name

theorem effective?_some (hkey : key ≠ "") (s : Store) (name : String) :
    s.effective? name (some key) = ((s.given? (some key) name).or (s.given? none name)).join := by
  have hfilter : (some key).filter (· != "") = some key := by simp [Option.filter_some, hkey]
  rw [effective?, hfilter]
  simp only [given?, local?_eq, globalValue?_eq]
  cases s.override? name key with
  | some value => rfl
  | none => cases s.variableAt? (some key) name <;> rfl

/-- The variables are the same, and so are the values that triggers give to them. -/
structure SameVariables (s t : Store) : Prop where
  variableAt?_eq : ∀ scope name, t.variableAt? scope name = s.variableAt? scope name
  override?_eq : ∀ name key, t.override? name key = s.override? name key

theorem SameVariables.refl (s : Store) : SameVariables s s := ⟨fun _ _ => rfl, fun _ _ => rfl⟩

theorem SameVariables.trans (h : SameVariables s t) (h' : SameVariables t u) : SameVariables s u where
  variableAt?_eq scope name := (h'.variableAt?_eq scope name).trans (h.variableAt?_eq scope name)
  override?_eq name key := (h'.override?_eq name key).trans (h.override?_eq name key)

theorem SameVariables.given?_eq (h : SameVariables s t) (home : Option String) (name : String) :
    t.given? home name = s.given? home name := by
  cases home with
  | none => rw [given?, h.variableAt?_eq, given?]
  | some key => rw [given?, h.variableAt?_eq, h.override?_eq, given?]

/-- A scope gives a value to a variable, and nothing else is different. -/
def Assigns (home : Option String) (name : String) (value : Value) (s t : Store) : Prop :=
  ∀ home' name', t.given? home' name' =
    if home' = home ∧ name' = name then some (some value) else s.given? home' name'

/-- A declaration in a scope has left a variable there, or a value that the trigger gives to a name which
was registered before. -/
structure Declares (home : Option String) (name : String) (value : Value) (s t : Store) : Prop where
  override? : ∀ {key info}, home = some key → s.nameInfo? name = some info →
    t.override? name key = some (some value)
  variableAt? : home = none ∨ s.nameInfo? name = none →
    ∃ v, t.variableAt? home name = some v ∧ v.value = some value

/-- Triggers give values to registered names only. -/
def OverridesNamed (s : Store) : Prop :=
  ∀ name key, s.nameInfo? name = none → s.override? name key = none

theorem OverridesNamed.of_overrides (hs : s.OverridesNamed)
    (hsame : ∀ name key, t.override? name key = s.override? name key)
    (hnames : ∀ {name info}, s.nameInfo? name = some info → t.nameInfo? name = some info) :
    t.OverridesNamed := by
  intro name key hfree
  rw [hsame]
  refine hs name key ?_
  cases hinfo : s.nameInfo? name with
  | none => rfl
  | some info =>
      rw [hnames hinfo] at hfree
      cases hfree

theorem Confined.override?_eq {owner : Option Owner} (h : Confined none owner s t) (name key : String) :
    t.override? name key = s.override? name key := by
  refine Classical.byContradiction fun hne => ?_
  have hhome := h.of_override key name hne
  cases hhome

theorem override?_updateComponent (s : Store) (name attr : String) (f : Cell → Except DatumError Cell)
    (other key : String) :
    (s.updateComponent name attr f).store.override? other key = s.override? other key := by
  rw [updateComponent]
  split
  · rfl
  · split
    · rfl
    · next cell _ =>
        obtain ⟨g, hg, htrigger⟩ := s.trigger?_changeComponent name key (·.setCell attr cell)
        rw [Outcome.store_done, override?, htrigger, override?]
        cases s.trigger? key with
        | none => rfl
        | some x => simp only [Option.map_some, Option.bind_some, (hg x).2.2.2]

theorem override?_write (s : Store) (who : Owner) (attr : String) (a : Attribute) (name key : String) :
    (s.write who attr a).override? name key = s.override? name key := by
  cases who with
  | component other kind =>
      simp only [write, updateComponentAttribute, updateComponentModulation, override?_updateComponent]
  | trigger other kind =>
      have hboth : Confined none (some (.trigger other kind)) s (s.write (.trigger other kind) attr a) :=
        (s.confined_updateTrigger other kind attr _).trans (confined_updateTrigger ..)
      exact hboth.override?_eq name key

theorem sameVariables_write (s : Store) (who : Owner) (attr : String) (a : Attribute) :
    SameVariables s (s.write who attr a) :=
  ⟨(s.keeps_write who attr a).variableAt?_eq, s.override?_write who attr a⟩

theorem sameVariables_declareTrigger (s : Store) (key kind : String) :
    SameVariables s (s.declareTrigger key kind) :=
  have hconfined : Confined none none s (s.declareTrigger key kind) := confined_declareTrigger s key kind
  ⟨(s.keeps_declareTrigger key kind).variableAt?_eq, hconfined.override?_eq⟩

theorem sameVariables_withName (s : Store) (name : String) (info : NameInfo) :
    SameVariables s (s.withName name info) :=
  ⟨s.variableAt?_withName name info, fun _ _ => rfl⟩

theorem override?_placeVariable (s : Store) (v : Variable) (name key : String) :
    (s.placeVariable v).override? name key = s.override? name key := by
  rw [placeVariable]
  cases v.scope <;> rfl

theorem sameVariables_addComponent (s : Store) (kind name : String) (home : Option String) :
    SameVariables s (s.addComponent kind name (.ofHome home) home []).store := by
  obtain ⟨-, hstore⟩ | ⟨-, -, hstore⟩ := addComponent_bare s kind name home
  · rw [hstore]
    exact .refl s
  · rw [hstore]
    refine (s.sameVariables_withName name ⟨.ofHome home, kind, home⟩).trans ⟨?_, ?_⟩
    · intro scope other
      exact variableAt?_placeComponent ..
    · intro other key
      exact override?_placeComponent ..

theorem assigns_placeVariable {v : Variable} (hvalue : v.value = some value)
    (hfree : ∀ key, v.home = some key → s.override? v.name key = none) :
    Assigns v.home v.name value s (s.placeVariable v) := by
  intro home name
  cases home with
  | none =>
      rw [given?, given?, variableAt?_placeVariable]
      split
      · rw [Option.map_some, hvalue]
      · rfl
  | some key =>
      rw [given?, given?, variableAt?_placeVariable, override?_placeVariable]
      split
      · next heq =>
          obtain ⟨hhome, rfl⟩ := heq
          rw [hfree key hhome.symm, Option.none_or, Option.map_some, hvalue]
      · rfl

theorem override?_setOverride_of_ok {d : Datum} {value : Option Value} (s : Store) (name key : String)
    (hvalue : Value.ofDatum d = .ok value) (other key' : String) :
    (s.setOverride name d key).store.override? other key' =
      if key' = key ∧ other = name then some value else s.override? other key' := by
  simp only [setOverride, hvalue, Outcome.store_done]
  rw [override?_changeTrigger]
  by_cases hkey : key' = key
  · simp only [hkey, if_true, true_and, Table.get?_insert, overrides_triggerOrFresh]
  · simp only [hkey, if_false, false_and]

theorem override?_setOverride (s : Store) (name : String) (value : Value) (key other key' : String) :
    (s.setOverride name (.value value) key).store.override? other key' =
      if key' = key ∧ other = name then some (some value) else s.override? other key' :=
  s.override?_setOverride_of_ok name key rfl other key'

theorem assigns_setOverride (s : Store) (name : String) (value : Value) (key : String) :
    Assigns (some key) name value s (s.setOverride name (.value value) key).store := by
  have hkeeps := s.keeps_setOverride name (.value value) key
  intro home other
  cases home with
  | none => simp [given?, hkeeps.variableAt?_eq]
  | some key' =>
      simp only [given?, hkeeps.variableAt?_eq, override?_setOverride, Option.some.injEq]
      split
      · rfl
      · rfl

theorem declares_variable {v : Variable} (hfirst : ∀ key, home = some key → s.nameInfo? name = none)
    (hv : t.variableAt? home name = some v) (hvalue : v.value = some value) :
    Declares home name value s t where
  override? {key info} hhome hinfo := by
    rw [hfirst key hhome] at hinfo
    cases hinfo
  variableAt? _ := ⟨v, hv, hvalue⟩

theorem declares_setOverride {info : NameInfo} (hinfo : s.nameInfo? name = some info) (value : Value)
    (key : String) :
    Declares (some key) name value s (s.setOverride name (.value value) key).store where
  override? hkey _ := by
    cases hkey
    rw [override?_setOverride, if_pos ⟨rfl, rfl⟩]
  variableAt? hfree := by
    rcases hfree with hnone | hfree
    · cases hnone
    · rw [hinfo] at hfree
      cases hfree

theorem OverridesNamed.setOverride (hs : s.OverridesNamed) {info : NameInfo}
    (hinfo : s.nameInfo? name = some info) (value : Value) (key : String) :
    (s.setOverride name (.value value) key).store.OverridesNamed := by
  intro other key' hfree
  rw [(s.keeps_setOverride ..).nameInfo?_eq] at hfree
  rw [override?_setOverride, if_neg]
  · exact hs other key' hfree
  · rintro ⟨-, rfl⟩
    rw [hinfo] at hfree
    cases hfree

theorem assigns_addVariable (hs : s.OverridesNamed)
    (hfirst : ∀ key, home = some key → s.nameInfo? name = none) {lower upper : Datum} {line : Option Int}
    (h : (s.addVariable name (.value value) (.ofHome home) home lower upper line).answer = .ok true) :
    let t := (s.addVariable name (.value value) (.ofHome home) home lower upper line).store
    Assigns home name value s t ∧ Declares home name value s t ∧ t.OverridesNamed := by
  intro t
  have hgrows : s.Grows t := grows_addVariable ..
  obtain ⟨hanswer, -⟩ | ⟨registered, -, hregistered, hstore⟩ :=
    addVariable_value s name value home lower upper line
  · exact absurd h hanswer
  · have hsame : SameVariables s registered := by
      rcases hregistered with rfl | ⟨-, rfl⟩
      · exact .refl _
      · exact s.sameVariables_withName name _
    refine ⟨?_, ?_, ?_⟩
    · have hplaced := assigns_placeVariable (s := registered)
        (v := ⟨name, some value, .ofHome home, home, lower, upper, line⟩) rfl
      rw [Variable.home, ScopeKind.home_ofHome] at hplaced
      intro home' name'
      simp only [t, hstore]
      rw [hplaced, hsame.given?_eq]
      intro key hkey
      rw [hsame.override?_eq]
      exact hs name key (hfirst key hkey)
    · refine declares_variable hfirst (v := ⟨name, some value, .ofHome home, home, lower, upper, line⟩)
        ?_ rfl
      simp only [t, hstore]
      rw [variableAt?_placeVariable, Variable.home, ScopeKind.home_ofHome, if_pos ⟨rfl, rfl⟩]
    · refine hs.of_overrides ?_ hgrows.nameInfo?
      intro other key
      simp only [t, hstore]
      rw [override?_placeVariable, hsame.override?_eq]

theorem answer_addVariable_of_free (hkey : ∀ key, home = some key → key ≠ "")
    (hfree : s.nameInfo? name = none) (value : Value) (lower upper : Datum) (line : Option Int) :
    (s.addVariable name (.value value) (.ofHome home) home lower upper line).answer = .ok true := by
  have hlacks : (ScopeKind.ofHome home).lacksKey home = false := by
    cases home with
    | none => rfl
    | some key => simp [ScopeKind.ofHome, ScopeKind.lacksKey, hkey key rfl]
  have hrenews : s.renews name (.ofHome home) home = false := by rw [renews, hfree, Option.any_none]
  have hregistered : s.register? name ⟨.ofHome home, variableKind, home⟩ = some _ :=
    register?_eq_some.2 ⟨hfree, rfl⟩
  simp [addVariable, hlacks, hrenews, ScopeKind.keyFor_ofHome, hregistered, Value.ofDatum]

end Store

namespace Document

open Text

namespace Reader

variable {c : Catalog} {strict : Bool} {r r' r'' : Reader} {line : List Char}

def Tells (r r' : Reader) (fails : Bool) : Prop :=
  ∃ new, r'.issues = r.issues ++ new ∧ new.any (·.isError) = fails

theorem Tells.eq {fails : Bool} (h : Tells r r' fails) :
    (r'.issues.drop r.issues.length).any (·.isError) = fails := by
  obtain ⟨new, hissues, hfails⟩ := h
  rw [hissues, List.drop_left, hfails]

theorem Tells.trans {fails fails' : Bool} (h : Tells r r' fails) (h' : Tells r' r'' fails') :
    Tells r r'' (fails || fails') := by
  obtain ⟨new, hissues, hfails⟩ := h
  obtain ⟨new', hissues', hfails'⟩ := h'
  exact ⟨new ++ new', by rw [hissues', hissues, List.append_assoc], by rw [List.any_append, hfails, hfails']⟩

theorem tells_of_eq (h : r'.issues = r.issues) : Tells r r' false :=
  ⟨[], by rw [h, List.append_nil], rfl⟩

theorem tells_complain (complaint : Complaint) :
    Tells r (r.complain complaint) (complaint.severity == .error) :=
  ⟨[⟨r.line, complaint⟩], rfl, Bool.or_false _⟩

def valueText (text : List Char) : List Char :=
  ((bracketed? text).map fun b => strip b.before).getD text

def range? (text : List Char) : Option Interval := (bracketed? text).bind fun b => Interval.read? b.inside

theorem declare_of_some {content : List Char} {name : String} {text : List Char}
    (h : declaration? content = some (name, text)) :
    ∃ told, (told = r ∨ ∃ complaint, complaint.severity = .warning ∧ told = r.complain complaint) ∧
      r.declare c content = told.declareHere c name (r.variableValue (valueText text)) (range? text) := by
  simp only [declare, h]
  refine ⟨_, ?_, rfl⟩
  split
  · exact .inr ⟨_, rfl, rfl⟩
  · exact .inl rfl

/-- A declaration fails with an error and without effect, or it gives the value to the variable in a
scope. -/
inductive Declared (home : Option String) (name : String) (value : Value) (r after : Reader) : Prop
  | refused (hfails : Tells r after true) (hstore : after.store = r.store)
  | accepted (hquiet : Tells r after false)
      (hassigns : Store.Assigns home name value r.store after.store)
      (hdeclares : Store.Declares home name value r.store after.store)
      (hnamed : after.store.OverridesNamed)

theorem Declared.of_told {home : Option String} {name : String} {value : Value} {told after : Reader}
    (h : Declared home name value told after) (htold : Tells r told false)
    (hstore : told.store = r.store) : Declared home name value r after := by
  cases h with
  | refused hfails hkept => exact .refused (htold.trans hfails) (hkept.trans hstore)
  | accepted hquiet hassigns hdeclares hnamed =>
      rw [hstore] at hassigns hdeclares
      exact .accepted (htold.trans hquiet) hassigns hdeclares hnamed

theorem declared_declareGlobal (hnamed : r.store.OverridesNamed) (name : String) (value : Value)
    (range : Option Interval) : Declared none name value r (r.declareGlobal name value range) := by
  simp only [declareGlobal]
  split
  · next hanswer =>
      have hfirst : ∀ key, (none : Option String) = some key → r.store.nameInfo? name = none := by simp
      obtain ⟨hassigns, hdeclares, hnamed⟩ := Store.assigns_addVariable hnamed hfirst hanswer
      exact .accepted (tells_of_eq rfl) hassigns hdeclares hnamed
  · next hanswer =>
      refine .refused (tells_complain (r := r.follow _) _) ?_
      obtain ⟨-, hstore⟩ | ⟨_, htaken, -⟩ := Store.addVariable_value r.store name value none _ _ _
      · exact hstore
      · exact absurd htaken hanswer

theorem declared_declareIn (hnamed : r.store.OverridesNamed) (c : Catalog) {frame : Frame}
    (hkey : frame.key ≠ "") (name : String) (value : Value) (range : Option Interval) :
    Declared (some frame.key) name value r (r.declareIn c frame name value range) := by
  simp only [declareIn]
  split
  · next hfree =>
      have hkeyed : ∀ key, some frame.key = some key → key ≠ "" := by
        rintro key ⟨⟩
        exact hkey
      obtain ⟨hassigns, hdeclares, hnamed⟩ := Store.assigns_addVariable hnamed (fun _ _ => hfree)
        (Store.answer_addVariable_of_free hkeyed hfree ..)
      exact .accepted (tells_of_eq rfl) hassigns hdeclares hnamed
  · next info hinfo =>
      split
      · exact .refused (tells_complain _) rfl
      · split
        · exact .refused (tells_complain _) rfl
        · have hgiven : ∀ told : Reader, told.store = r.store →
              Declared (some frame.key) name value told
                (told.follow (told.store.setOverride name (.value value) frame.key)) := by
            intro told hstore
            rw [← hstore] at hinfo hnamed
            exact .accepted (tells_of_eq rfl) (told.store.assigns_setOverride name value frame.key)
              (Store.declares_setOverride hinfo value frame.key)
              (hnamed.setOverride hinfo value frame.key)
          split
          · have hignored : Tells r (r.complain (.rangeIgnored name)) false := tells_complain _
            exact (hgiven (r.complain _) rfl).of_told hignored rfl
          · exact hgiven r rfl

theorem declared_declareHere (hkey : ∀ frame, r.scope = some frame → frame.key ≠ "")
    (hnamed : r.store.OverridesNamed) (c : Catalog) (name : String) (value : Value)
    (range : Option Interval) : Declared r.home name value r (r.declareHere c name value range) := by
  rw [declareHere, home]
  cases hscope : r.scope with
  | none => exact declared_declareGlobal hnamed name value range
  | some frame => exact declared_declareIn hnamed c (hkey frame hscope) name value range

theorem declared_declare (hkey : ∀ frame, r.scope = some frame → frame.key ≠ "")
    (hnamed : r.store.OverridesNamed) (c : Catalog) {content : List Char} {name : String}
    {text : List Char} (h : declaration? content = some (name, text)) :
    Declared r.home name (r.variableValue (valueText text)) r (r.declare c content) := by
  obtain ⟨told, htold, heq⟩ := declare_of_some (c := c) (r := r) h
  rw [heq]
  rcases htold with rfl | ⟨complaint, hwarning, rfl⟩
  · exact declared_declareHere hkey hnamed c ..
  · have htells := tells_complain (r := r) complaint
    rw [hwarning] at htells
    exact (declared_declareHere (r := r.complain complaint) hkey hnamed c ..).of_told htells rfl

theorem Effect.sameVariables {kind : LineKind} {t : Store} (h : Effect c strict r kind t)
    (hkind : kind ≠ .declaration) : Store.SameVariables r.store t := by
  cases h with
  | unchanged => exact .refl _
  | declared => exact absurd rfl hkind
  | overridden => exact absurd rfl hkind
  | entered frame hheader => exact Store.sameVariables_declareTrigger ..
  | added kind name _ => exact Store.sameVariables_addComponent ..
  | assigned who attr text howner => exact Store.sameVariables_write ..
  | modulated cursor name hattr => exact Store.sameVariables_write ..

/-- The scope and the name of the variable that a line gives a value to, and the value, for a
declaration that is read without an error. -/
def declared? (c : Catalog) (strict : Bool) (line : List Char) (r : Reader) :
    Option ((Option String × String) × Value) :=
  let now := r.ready line
  if r.passes line = false ∧ String.ofList (firstWord (strip line)) = variableWord ∧
      ((r.step c strict line).issues.drop r.issues.length).any (·.isError) = false then
    (declaration? (strip line)).map fun (name, text) =>
      ((now.home, name), now.variableValue (valueText text))
  else none

def declarations (c : Catalog) (strict : Bool) (r : Reader) :
    List (List Char) → List ((Option String × String) × Value)
  | [] => []
  | line :: rest =>
    declarations c strict (r.step c strict line) rest ++ (r.declared? c strict line).toList

def HasKey : Owner → Prop
  | .component _ _ => True
  | .trigger key _ => key ≠ ""

/-- The store gives to variables what the last lines for them gave. -/
structure Scoped (given : List ((Option String × String) × Value)) (r : Reader) : Prop where
  given?_eq : ∀ home name, r.store.given? home name = (given.lookup (home, name)).map some
  named : r.store.OverridesNamed
  keyed : AllOpen HasKey r
  unkeyed : ∀ name, given.lookup (some "", name) = none

variable {given : List ((Option String × String) × Value)}

theorem scoped_start : Scoped [] start where
  given?_eq home name := by cases home <;> rfl
  named _ _ _ := rfl
  keyed := allOpen_start
  unkeyed _ := rfl

theorem issues_settle (indent : Nat) (r : Reader) : (r.settle indent).issues = r.issues := by
  simp only [settle, closeFrames]
  split <;> rfl

theorem Scoped.ready (h : Scoped given r) (line : List Char) : Scoped given (r.ready line) := by
  have hstore : (r.ready line).store = r.store := store_settle ..
  have hnext : AllOpen HasKey { r with line := r.line + 1 } :=
    ⟨h.keyed.frame, h.keyed.trigger, h.keyed.component, h.keyed.attr⟩
  refine ⟨?_, ?_, hnext.settle (indentOf line), h.unkeyed⟩
  · rw [hstore]
    exact h.given?_eq
  · rw [hstore]
    exact h.named

theorem word_ne (h : saysNothing (strip line) = false) : (Header.ofContent (strip line)).word ≠ "" := by
  have hcut : (cutAtSpace (strip line)).1 ≠ [] := by
    obtain hnil | ⟨ch, rest, hcons, hblank⟩ := strip_cases line
    · rw [hnil] at h
      cases h
    · have hspace : ch ≠ ' ' := by
        rintro rfl
        exact absurd hblank (by decide)
      rw [hcons, fst_cutAtSpace, List.takeWhile_cons_of_pos (by simpa using hspace)]
      exact List.cons_ne_nil _ _
  intro hempty
  have hlist := congrArg String.toList hempty
  rw [Header.ofContent, String.toList_ofList] at hlist
  exact hcut hlist

theorem key_ne_of_eventOf {indent : Nat} {frame : Frame} (hcontent : saysNothing (strip line) = false)
    (h : r.eventOf c indent (strip line) = .trigger frame) : frame.key ≠ "" := by
  have hkind : frame.kind = (Header.ofContent (strip line)).word :=
    (indent_and_kind_headerFrame? (eventOf_eq_trigger_iff.1 h).2).2
  obtain ⟨name, -, hkey⟩ := takesHeader_eventOf h
  rw [hkey, hkind]
  exact makeScopeKey_ne (word_ne hcontent) name

theorem saysNothing_of_not_passes (h : r.passes line = false) : saysNothing (strip line) = false := by
  rw [passes, Bool.or_eq_false_iff] at h
  exact h.1

theorem Scoped.keyed_step (h : Scoped given r) (line : List Char) :
    AllOpen HasKey (r.step c strict line) := by
  cases hpasses : r.passes line with
  | true =>
      rw [step_of_passes hpasses]
      exact ⟨h.keyed.frame, h.keyed.trigger, h.keyed.component, h.keyed.attr⟩
  | false =>
      rw [step_of_not_passes hpasses]
      refine (h.ready line).keyed.of_opens (opens_dispatch _ _ _) ?_ fun _ _ => trivial
      intro frame hframe
      exact key_ne_of_eventOf (saysNothing_of_not_passes hpasses) hframe

theorem declares_or_kept (h : Scoped given r) (c : Catalog) (strict : Bool)
    (hpasses : r.passes line = false)
    (hword : String.ofList (firstWord (strip line)) = variableWord) :
    (r.declared? c strict line = none ∧ (r.step c strict line).store = (r.ready line).store) ∨
    ∃ home name value, r.declared? c strict line = some ((home, name), value) ∧
      Store.Assigns home name value (r.ready line).store (r.step c strict line).store ∧
      Store.Declares home name value (r.ready line).store (r.step c strict line).store ∧
      (r.step c strict line).store.OverridesNamed := by
  have hready := h.ready line
  have hstep : r.step c strict line = (r.ready line).declare c (strip line) := by
    rw [step_of_not_passes hpasses, dispatch, classify, if_pos hword]
    rfl
  have hissues : (r.ready line).issues = r.issues := issues_settle ..
  cases hparts : declaration? (strip line) with
  | none =>
      refine .inl ⟨by simp [declared?, hparts], ?_⟩
      rw [hstep]
      simp only [declare, hparts]
      rfl
  | some parts =>
      obtain ⟨name, text⟩ := parts
      have hdeclared := declared_declare (fun frame hframe => hready.keyed.scope hframe) hready.named c hparts
      rw [← hstep] at hdeclared
      cases hdeclared with
      | refused hfails hstore =>
          have herror := hfails.eq
          rw [hissues] at herror
          exact .inl ⟨by simp [declared?, herror], hstore⟩
      | accepted hquiet hassigns hdeclares hnamed =>
          have hclean := hquiet.eq
          rw [hissues] at hclean
          refine .inr ⟨_, _, _, ?_, hassigns, hdeclares, hnamed⟩
          simp [declared?, hpasses, hword, hclean, hparts]

theorem declares_or_same (h : Scoped given r) (c : Catalog) (strict : Bool) (line : List Char) :
    (r.declared? c strict line = none ∧
      Store.SameVariables (r.ready line).store (r.step c strict line).store ∧
      ∀ {name info}, (r.ready line).store.nameInfo? name = some info →
        (r.step c strict line).store.nameInfo? name = some info) ∨
    ∃ home name value, r.declared? c strict line = some ((home, name), value) ∧
      Store.Assigns home name value (r.ready line).store (r.step c strict line).store ∧
      (r.step c strict line).store.OverridesNamed := by
  cases hpasses : r.passes line with
  | true =>
      have hstore : (r.step c strict line).store = (r.ready line).store := by
        rw [step_of_passes hpasses, Reader.ready, store_settle]
      rw [hstore]
      exact .inl ⟨by simp [declared?, hpasses], .refl _, id⟩
  | false =>
      by_cases hword : String.ofList (firstWord (strip line)) = variableWord
      · obtain ⟨hnone, hstore⟩ | ⟨home, name, value, hdeclared, hassigns, -, hnamed⟩ :=
          declares_or_kept h c strict hpasses hword
        · rw [hstore]
          exact .inl ⟨hnone, .refl _, id⟩
        · exact .inr ⟨home, name, value, hdeclared, hassigns, hnamed⟩
      · have hkind : (r.ready line).classify c (indentOf line)
            (String.ofList (firstWord (strip line))) ≠ .declaration := by
          rw [classify, if_neg hword]
          repeat' split
          all_goals simp
        have heffect := @effect_dispatch c strict (r.ready line) (indentOf line) (strip line)
        rw [← step_of_not_passes hpasses] at heffect
        exact .inl ⟨by simp [declared?, hword], heffect.sameVariables hkind, heffect.nameInfo?_some⟩

theorem Scoped.store_step (h : Scoped given r) (c : Catalog) (strict : Bool) (line : List Char) :
    (r.step c strict line).store.OverridesNamed ∧
      ∀ home name, (r.step c strict line).store.given? home name =
        (((r.declared? c strict line).toList ++ given).lookup (home, name)).map some := by
  have hready := h.ready line
  obtain ⟨hnone, hsame, hnames⟩ | ⟨home, name, value, hdeclared, hassigns, hnamed⟩ :=
    declares_or_same h c strict line
  · refine ⟨hready.named.of_overrides hsame.override?_eq hnames, ?_⟩
    intro home name
    rw [hsame.given?_eq, hready.given?_eq, hnone]
    rfl
  · refine ⟨hnamed, ?_⟩
    intro home' name'
    rw [hassigns, hready.given?_eq, hdeclared, Option.toList_some, List.singleton_append,
      List.lookup_cons]
    by_cases heq : home' = home ∧ name' = name
    · obtain ⟨rfl, rfl⟩ := heq
      simp
    · have hne : (home', name') ≠ (home, name) := by simpa using heq
      rw [if_neg heq, beq_false_of_ne hne]

theorem declares_of_declared? {given : (Option String × String) × Value}
    (h : r.declared? c strict line = some given) :
    r.passes line = false ∧ String.ofList (firstWord (strip line)) = variableWord := by
  simp only [declared?] at h
  split at h
  · next hreads => exact ⟨hreads.1, hreads.2.1⟩
  · cases h

theorem home_of_declared? {home : Option String} {name : String} {value : Value}
    (h : r.declared? c strict line = some ((home, name), value)) : home = (r.ready line).home := by
  simp only [declared?] at h
  split at h
  · obtain ⟨parts, -, heq⟩ := Option.map_eq_some_iff.1 h
    cases heq
    rfl
  · cases h

theorem Scoped.step (h : Scoped given r) (line : List Char) :
    Scoped ((r.declared? c strict line).toList ++ given) (r.step c strict line) where
  given?_eq := (h.store_step c strict line).2
  named := (h.store_step c strict line).1
  keyed := h.keyed_step line
  unkeyed name := by
    rw [List.lookup_append, h.unkeyed, Option.or_none]
    cases hdeclared : r.declared? c strict line with
    | none => rfl
    | some entry =>
        obtain ⟨⟨home, name'⟩, value⟩ := entry
        have hne : (some "", name) ≠ (home, name') := by
          rintro ⟨⟩
          have hhome := home_of_declared? hdeclared
          rw [Reader.home, eq_comm, Option.map_eq_some_iff] at hhome
          obtain ⟨frame, hscope, hkey⟩ := hhome
          exact (h.ready line).keyed.scope hscope hkey
        simp [List.lookup_cons, beq_false_of_ne hne]

theorem scoped_readLines (c : Catalog) (strict : Bool) (lines : List (List Char)) :
    ∀ {given r}, Scoped given r →
      Scoped (declarations c strict r lines ++ given) (readLines c strict r lines) := by
  induction lines with
  | nil =>
      intro given r h
      exact h
  | cons line rest ih =>
      intro given r h
      have hstep : Scoped ((r.declared? c strict line).toList ++ given) (r.step c strict line) :=
        h.step line
      -- What the later lines declare stands before what the earlier ones did.
      have htail := ih hstep
      rw [← List.append_assoc] at htail
      exact htail

theorem sameVariables_conclude (c : Catalog) (strict : Bool) (r : Reader) :
    Store.SameVariables r.store (r.conclude c strict).store := by
  refine conclude_induction (p := Store.SameVariables r.store) c strict (.refl _) ?_
  intro s target a _ hsame
  exact hsame.trans (s.sameVariables_write ..)

end Reader

/-- After a document has been read, the value that counts for a variable in a scope is the one from the
last line that declares it there without an error; where there is none, from the last such line in the
global scope; and there is no value where there is none either. Without a scope only the global lines
count. -/
theorem last_declaration_counts (c : Catalog) (strict : Bool) (text name : String) :
    let declared := Reader.declarations c strict .start (Text.lines text.toList)
    (∀ key, (read c strict text).store.effective? name (some key) =
      (declared.lookup (some key, name)).or (declared.lookup (none, name))) ∧
    (read c strict text).store.effective? name none = declared.lookup (none, name) := by
  intro declared
  have hscoped := Reader.scoped_readLines c strict (Text.lines text.toList) Reader.scoped_start
  rw [List.append_nil] at hscoped
  have hgiven (home : Option String) : (read c strict text).store.given? home name =
      (declared.lookup (home, name)).map some :=
    ((Reader.sameVariables_conclude c strict _).given?_eq home name).trans (hscoped.given?_eq home name)
  have hjoin (value : Option Value) : (value.map some).join = value := by cases value <;> rfl
  refine ⟨?_, ?_⟩
  · intro key
    by_cases hkey : key = ""
    · subst hkey
      rw [Store.effective?_blank, hgiven, hjoin, hscoped.unkeyed, Option.none_or]
    · rw [Store.effective?_some hkey, hgiven, hgiven, ← Option.map_or, hjoin]
  · rw [Store.effective?_none, hgiven, hjoin]

end Document

end Instrument
