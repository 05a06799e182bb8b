import Instrument.Document.Reader
import Instrument.Proofs.Confined

namespace Instrument.Document

def TakesHeader (c : Catalog) (kind : String) (name : Option String) : Prop :=
  ∃ schema, c.trigger? kind = some schema ∧
    match name with
    | none => schema.requiresName.isYes = false
    | some name => schema.requiresName.isYes = true ∧ ∃ text, name = String.ofList (Text.strip text) ∧
        Text.strip text ≠ [] ∧ (Text.words (Text.strip text)).length ≤ 1

namespace Reader

theorem complainAll_eq (complaints : List Complaint) (r : Reader) :
    r.complainAll complaints =
      { r with issues := r.issues ++ complaints.map fun complaint => ⟨r.line, complaint⟩ } := by
  induction complaints generalizing r with
  | nil => simp [complainAll]
  | cons complaint rest ih =>
      have htail := ih (r.complain complaint)
      simp only [complainAll, List.foldl_cons] at htail ⊢
      rw [htail]
      simp [complain, complainAt]

/-- The scope that a line belongs to, by the key of its trigger. -/
def home (r : Reader) : Option String := r.scope.map (·.key)

def headerFrame? (c : Catalog) (indent : Nat) (content : List Char) : Option Frame :=
  let header := Header.ofContent content
  (c.trigger? header.word).bind fun schema =>
    if !schema.requiresName.isYes then some ⟨header.word, makeScopeKey header.word none, indent⟩
    else if header.rest.isEmpty || (Text.words header.rest).length > 1 then none
    else some ⟨header.word, makeScopeKey header.word (some (String.ofList header.rest)), indent⟩

theorem indent_and_kind_headerFrame? {c : Catalog} {indent : Nat} {content : List Char} {frame : Frame}
    (h : headerFrame? c indent content = some frame) :
    frame.indent = indent ∧ frame.kind = (Header.ofContent content).word := by
  simp only [headerFrame?, Option.bind_eq_some_iff] at h
  obtain ⟨schema, -, h⟩ := h
  split at h
  · cases h
    exact ⟨rfl, rfl⟩
  · split at h
    · cases h
    · cases h
      exact ⟨rfl, rfl⟩

theorem takesHeader_headerFrame? {c : Catalog} {indent : Nat} {content : List Char} {frame : Frame}
    (h : headerFrame? c indent content = some frame) :
    ∃ name, TakesHeader c frame.kind name ∧ frame.key = makeScopeKey frame.kind name := by
  simp only [headerFrame?, Option.bind_eq_some_iff] at h
  obtain ⟨schema, hschema, h⟩ := h
  split at h
  · next hneeds =>
      cases h
      exact ⟨none, ⟨schema, hschema, by simpa using hneeds⟩, rfl⟩
  · next hneeds =>
      split at h
      · cases h
      · next hname =>
          cases h
          refine ⟨some (String.ofList (Header.ofContent content).rest),
            ⟨schema, hschema, by simpa using hneeds, (Text.cutAtSpace content).2, rfl, ?_⟩, rfl⟩
          simpa [Header.ofContent] using hname

variable {c : Catalog} {strict : Bool} {r : Reader}

/-- The stores that a line of a kind may leave, by what is open when it is read. -/
inductive Effect (c : Catalog) (strict : Bool) (r : Reader) : LineKind → Store → Prop
  | unchanged (kind : LineKind) : Effect c strict r kind r.store
  | declared (name : String) (value : Value) (range : Option Interval) :
      Effect c strict r .declaration (r.addVariable name value range (.ofHome r.home) r.home).store
  | overridden (frame : Frame) (name : String) (value : Value) (hscope : r.scope = some frame) :
      Effect c strict r .declaration (r.store.setOverride name (.value value) frame.key).store
  | entered (frame : Frame)
      (hheader : ∃ name, TakesHeader c frame.kind name ∧ frame.key = makeScopeKey frame.kind name) :
      Effect c strict r .trigger (r.store.declareTrigger frame.key frame.kind)
  | added (kind name : String) (hkind : kind ≠ variableKind) :
      Effect c strict r .component (r.store.addComponent kind name (.ofHome r.home) r.home []).store
  | assigned (owner : Owner) (attr : String) (text : List Char) (howner : r.owner = some owner) :
      Effect c strict r .assignment (r.store.write owner attr
        (assign strict owner attr (schemaOf c owner attr) (r.store.read owner attr) text
          (r.store.nameInfo? (String.ofList text))).attr)
  | modulated (cursor : AttributeCursor) (name : String) (hattr : r.attr = some cursor) :
      Effect c strict r .modulation (r.store.write cursor.owner cursor.name
        ((r.store.read cursor.owner cursor.name).withModulation (some (.named name))))

theorem store_declareGlobal (name : String) (value : Value) (range : Option Interval) :
    (r.declareGlobal name value range).store = (r.addVariable name value range .global none).store := by
  simp only [declareGlobal]
  split <;> rfl

theorem effect_declareGlobal (name : String) (value : Value) (range : Option Interval)
    (hscope : r.scope = none) :
    Effect c strict r .declaration (r.declareGlobal name value range).store := by
  have h : Effect c strict r .declaration _ := .declared name value range
  rw [store_declareGlobal]
  simpa [home, hscope, ScopeKind.ofHome] using h

theorem effect_declareIn (frame : Frame) (name : String) (value : Value) (range : Option Interval)
    (hscope : r.scope = some frame) :
    Effect c strict r .declaration (r.declareIn c frame name value range).store := by
  simp only [declareIn]
  split
  · have h : Effect c strict r .declaration _ := .declared name value range
    simpa [home, hscope, ScopeKind.ofHome, follow] using h
  · split
    · exact .unchanged _
    · split
      · exact .unchanged _
      · have h : Effect c strict r .declaration _ := .overridden frame name value hscope
        split <;> exact h

theorem Effect.of_complain {complaint : Complaint} {kind : LineKind} {s : Store}
    (h : Effect c strict (r.complain complaint) kind s) : Effect c strict r kind s := by
  cases h with
  | unchanged => exact .unchanged kind
  | declared name value range => exact .declared name value range
  | overridden frame name value hscope => exact .overridden frame name value hscope
  | entered frame hheader => exact .entered frame hheader
  | added kind name hkind => exact .added kind name hkind
  | assigned owner attr text howner => exact .assigned owner attr text howner
  | modulated cursor name hattr => exact .modulated cursor name hattr

def declareHere (c : Catalog) (name : String) (value : Value) (range : Option Interval) (r : Reader) :
    Reader :=
  match r.scope with
  | none => r.declareGlobal name value range
  | some frame => r.declareIn c frame name value range

theorem declare_cases (c : Catalog) (content : List Char) (r : Reader) :
    r.declare c content = r.complain .malformedVariable ∨
      ∃ name value range told, (told = r ∨ ∃ complaint, told = r.complain complaint) ∧
        r.declare c content = told.declareHere c name value range := by
  simp only [declare]
  split
  · exact .inl rfl
  · next name text _ =>
      refine .inr ⟨name, _, _, _, ?_, rfl⟩
      split
      · exact .inr ⟨_, rfl⟩
      · exact .inl rfl

theorem effect_declareHere (name : String) (value : Value) (range : Option Interval) :
    Effect c strict r .declaration (r.declareHere c name value range).store := by
  rw [declareHere]
  split
  · next hscope => exact effect_declareGlobal name value range hscope
  · next frame hscope => exact effect_declareIn frame name value range hscope

theorem effect_declare (content : List Char) :
    Effect c strict r .declaration (r.declare c content).store := by
  obtain h | ⟨name, value, range, told, htold, h⟩ := declare_cases c content r
  · rw [h]
    exact .unchanged _
  · rw [h]
    rcases htold with rfl | ⟨complaint, rfl⟩
    · exact effect_declareHere name value range
    · exact .of_complain (effect_declareHere name value range)

def into (frame : Frame) (r : Reader) : Reader :=
  { r with
    frames := frame :: r.frames
    trigger := some frame
    component := none
    attr := none
    store := r.store.declareTrigger frame.key frame.kind }

theorem openTrigger_cases (c : Catalog) (indent : Nat) (content : List Char) (r : Reader) :
    (headerFrame? c indent content = none ∧
      ∃ complaint, r.openTrigger c indent content = r.refuse indent complaint) ∨
    ∃ frame told, headerFrame? c indent content = some frame ∧
      (told = r ∨ ∃ complaint, told = r.complain complaint) ∧
      r.openTrigger c indent content = told.into frame := by
  simp only [openTrigger, headerFrame?]
  cases hschema : c.trigger? (Header.ofContent content).word with
  | none => exact .inl ⟨rfl, _, rfl⟩
  | some schema =>
      simp only [Option.bind_some]
      cases hneeds : schema.requiresName.isYes with
      | false =>
          right
          simp only [Bool.not_false, if_true, Bool.false_eq_true, if_false]
          split
          · exact ⟨_, r, rfl, .inl rfl, rfl⟩
          · exact ⟨_, _, rfl, .inr ⟨_, rfl⟩, rfl⟩
      | true =>
          simp only [Bool.not_true, Bool.false_eq_true, if_false, if_true]
          cases hempty : (Header.ofContent content).rest.isEmpty with
          | true => exact .inl ⟨by simp, _, rfl⟩
          | false =>
              simp only [Bool.false_or, Bool.false_eq_true, if_false, decide_eq_true_eq]
              by_cases hwords : (Text.words (Header.ofContent content).rest).length > 1
              · rw [if_pos hwords, if_pos hwords]
                exact .inl ⟨rfl, _, rfl⟩
              · rw [if_neg hwords, if_neg hwords]
                exact .inr ⟨_, r, rfl, .inl rfl, rfl⟩

theorem effect_openTrigger (indent : Nat) (content : List Char) :
    Effect c strict r .trigger (r.openTrigger c indent content).store := by
  obtain ⟨-, complaint, h⟩ | ⟨frame, told, hframe, htold, h⟩ := openTrigger_cases c indent content r
  · rw [h]
    exact .unchanged _
  · have hheader := takesHeader_headerFrame? hframe
    rw [h]
    rcases htold with rfl | ⟨complaint, rfl⟩
    · exact .entered frame hheader
    · exact .entered frame hheader

def headerComponent (indent : Nat) (content : List Char) : ComponentCursor :=
  let header := Header.ofContent content
  ⟨header.word, String.ofList header.rest, indent⟩

def addHere (cursor : ComponentCursor) (r : Reader) : Outcome Bool :=
  r.store.addComponent cursor.kind cursor.name (.ofHome r.home) r.home []

theorem addComponent_cases (cursor : ComponentCursor) (r : Reader) :
    let after := r.addComponent cursor.kind cursor.name cursor.indent (.ofHome r.home) r.home
    ((r.addHere cursor).answer = .ok true ∧
      after = { r.follow (r.addHere cursor) with component := some cursor, attr := none }) ∨
    ((r.addHere cursor).store = r.store ∧
      after = (r.follow (r.addHere cursor)).refuse cursor.indent (.componentTaken cursor.name)) := by
  intro after
  obtain ⟨hanswer, hstore⟩ | ⟨hanswer, -, -⟩ :=
    Store.addComponent_bare r.store cursor.kind cursor.name r.home
  · refine .inr ⟨hstore, ?_⟩
    simp only [after, Reader.addComponent]
    rfl
  · refine .inl ⟨hanswer, ?_⟩
    simp only [after, Reader.addComponent]
    split
    · rfl
    · next h => exact absurd hanswer h

theorem openComponent_cases (c : Catalog) (indent : Nat) (content : List Char) (r : Reader) :
    ((r.addHere (headerComponent indent content)).answer = .ok true ∧
      r.openComponent c indent content =
        { r.follow (r.addHere (headerComponent indent content)) with
          component := some (headerComponent indent content)
          attr := none }) ∨
    ∃ told complaint, (told = r ∨ ∃ outcome : Outcome Bool, outcome.store = r.store ∧
        told = r.follow outcome) ∧
      r.openComponent c indent content = told.refuse indent complaint := by
  generalize hcursor : headerComponent indent content = cursor
  have hadded : ((r.addHere cursor).answer = .ok true ∧
        r.addComponent cursor.kind cursor.name cursor.indent (.ofHome r.home) r.home =
          { r.follow (r.addHere cursor) with component := some cursor, attr := none }) ∨
      ∃ told complaint, (told = r ∨ ∃ outcome : Outcome Bool, outcome.store = r.store ∧
          told = r.follow outcome) ∧
        r.addComponent cursor.kind cursor.name cursor.indent (.ofHome r.home) r.home =
          told.refuse cursor.indent complaint := by
    obtain h | ⟨hstore, h⟩ := addComponent_cases cursor r
    · exact .inl h
    · exact .inr ⟨_, _, .inr ⟨_, hstore, rfl⟩, h⟩
  subst hcursor
  simp only [openComponent]
  split
  · exact .inr ⟨r, _, .inl rfl, rfl⟩
  · split
    · exact .inr ⟨r, _, .inl rfl, rfl⟩
    · split
      · next hscope =>
          have hhome : r.home = none := by simp [home, hscope]
          rw [hhome] at hadded
          exact hadded
      · next frame hscope =>
          have hhome : r.home = some frame.key := by simp [home, hscope]
          split
          · exact .inr ⟨r, _, .inl rfl, rfl⟩
          · rw [hhome] at hadded
            exact hadded

theorem addHere_stored {cursor : ComponentCursor} (h : (r.addHere cursor).answer = .ok true) :
    ∃ x, (r.addHere cursor).store.componentAt? r.home cursor.kind cursor.name = some x := by
  obtain ⟨hanswer, -⟩ | ⟨-, -, hstore⟩ :=
    Store.addComponent_bare r.store cursor.kind cursor.name r.home
  · exact absurd h hanswer
  · rw [addHere, hstore, Store.componentAt?_placeComponent, Component.home, ScopeKind.home_ofHome,
      if_pos ⟨rfl, rfl, rfl⟩]
    exact ⟨_, rfl⟩

theorem effect_openComponent (indent : Nat) (content : List Char)
    (hkind : (Header.ofContent content).word ≠ variableKind) :
    Effect c strict r .component (r.openComponent c indent content).store := by
  obtain ⟨-, h⟩ | ⟨told, complaint, htold, h⟩ := openComponent_cases c indent content r
  · rw [h]
    exact .added _ _ hkind
  · rw [h]
    rcases htold with rfl | ⟨outcome, hstore, rfl⟩
    · exact .unchanged _
    · have hunchanged : Effect c strict r .component r.store := .unchanged _
      rw [← hstore] at hunchanged
      exact hunchanged

theorem assignLine_cases (c : Catalog) (strict : Bool) (indent : Nat) (content : List Char)
    (r : Reader) :
    (∃ complaint, r.assignLine c strict indent content = r.complain complaint) ∨
      ∃ owner attr text, r.owner = some owner ∧
        r.assignLine c strict indent content = r.writeLine c strict indent owner attr text := by
  simp only [assignLine]
  split
  · exact .inl ⟨_, rfl⟩
  · next owner howner =>
      split
      · exact .inl ⟨_, rfl⟩
      · split
        · exact .inl ⟨_, rfl⟩
        · exact .inr ⟨owner, _, _, howner, rfl⟩

theorem effect_assignLine (indent : Nat) (content : List Char) :
    Effect c strict r .assignment (r.assignLine c strict indent content).store := by
  obtain ⟨complaint, h⟩ | ⟨owner, attr, text, howner, h⟩ := assignLine_cases c strict indent content r
  · rw [h]
    exact .unchanged _
  · rw [h]
    exact .assigned owner attr text howner

theorem effect_modulate (content : List Char) :
    Effect c strict r .modulation (r.modulate content).store := by
  simp only [modulate]
  split
  · exact .unchanged _
  · exact .unchanged _
  · simp only [attach]
    split
    · exact .unchanged _
    · next cursor hattr => exact .modulated cursor _ hattr
  · exact .unchanged _

theorem word_of_classify {indent : Nat} {content : List Char}
    (h : r.classify c indent (String.ofList (Text.firstWord content)) = .component) :
    (Header.ofContent content).word ≠ variableKind := by
  intro hword
  have hcut : (Text.cutAtSpace content).1 = variableKind.toList := by
    have hlist := congrArg String.toList hword
    simpa [Header.ofContent] using hlist
  have hfirst : Text.firstWord content = variableKind.toList := by
    rw [← hcut]
    have hall : (variableKind.toList.all fun x => !Text.isBlank x) = true := by decide +kernel
    refine Text.firstWord_eq_cutAtSpace ?_ ?_
    · rw [hcut]
      decide +kernel
    · rw [hcut]
      intro x hx
      simpa using List.all_eq_true.1 hall x hx
  rw [hfirst, classify, if_pos (by decide +kernel)] at h
  cases h

theorem effect_dispatch (indent : Nat) (content : List Char) :
    Effect c strict r (r.classify c indent (String.ofList (Text.firstWord content)))
      (r.dispatch c strict indent content).store := by
  rw [dispatch]
  cases hkind : r.classify c indent (String.ofList (Text.firstWord content)) with
  | declaration => exact effect_declare content
  | trigger => exact effect_openTrigger indent content
  | modulation => exact effect_modulate content
  | assignment => exact effect_assignLine indent content
  | component => exact effect_openComponent indent content (word_of_classify hkind)

variable {kind : LineKind} {t : Store}

theorem Effect.coherent (h : Effect c strict r kind t) (hs : r.store.Coherent) : t.Coherent := by
  cases h with
  | unchanged => exact hs
  | declared name value range =>
      obtain ⟨-, hstore⟩ | ⟨_, hanswer, -⟩ := Store.addVariable_value r.store name value r.home _ _ _
      · rw [Reader.addVariable, hstore]
        exact hs
      · exact hs.addVariable hanswer
  | overridden frame name value hscope => exact (Store.keeps_setOverride ..).coherent hs
  | entered frame hheader => exact (Store.keeps_declareTrigger ..).coherent hs
  | added kind name hkind =>
      obtain ⟨-, hstore⟩ | ⟨hanswer, -⟩ := Store.addComponent_bare r.store kind name r.home
      · rw [hstore]
        exact hs
      · exact hs.addComponent hkind hanswer
  | assigned owner attr text howner => exact (Store.keeps_write ..).coherent hs
  | modulated cursor name hattr => exact (Store.keeps_write ..).coherent hs

theorem Effect.componentAt?_some (h : Effect c strict r kind t) {scope : Option String}
    {k name : String} {x : Component} (hx : r.store.componentAt? scope k name = some x) :
    ∃ y, t.componentAt? scope k name = some y := by
  cases h with
  | unchanged => exact ⟨x, hx⟩
  | declared name value range => exact ⟨x, (Store.componentAt?_addVariable ..).trans hx⟩
  | overridden frame name value hscope => exact (Store.keeps_setOverride ..).componentAt?_some hx
  | entered frame hheader => exact (Store.keeps_declareTrigger ..).componentAt?_some hx
  | added kind name hkind =>
      obtain ⟨-, hstore⟩ | ⟨-, -, hstore⟩ := Store.addComponent_bare r.store kind name r.home
      · rw [hstore]
        exact ⟨x, hx⟩
      · rw [hstore, Store.componentAt?_placeComponent, Store.componentAt?_withName]
        split
        · exact ⟨_, rfl⟩
        · exact ⟨x, hx⟩
  | assigned owner attr text howner => exact (Store.keeps_write ..).componentAt?_some hx
  | modulated cursor name hattr => exact (Store.keeps_write ..).componentAt?_some hx

theorem owner_eq_component {name kind : String} (h : r.owner = some (.component name kind)) :
    ∃ cursor, r.component = some cursor ∧ cursor.name = name ∧ cursor.kind = kind := by
  rw [owner] at h
  cases hcomponent : r.component with
  | none => simp [hcomponent] at h
  | some cursor =>
      rw [hcomponent] at h
      injection h with h
      injection h with hname hkind
      exact ⟨cursor, rfl, hname, hkind⟩

/-- Whatever a line changes lies in the scope that is open or belongs to the owner that is. -/
theorem Effect.confined (h : Effect c strict r kind t) (hs : r.store.Coherent)
    (hcomponent : ∀ cursor, r.component = some cursor →
      ∃ x, r.store.componentAt? r.home cursor.kind cursor.name = some x)
    (hattr : ∀ cursor, r.attr = some cursor → r.owner = some cursor.owner) :
    Store.Confined r.home r.owner r.store t := by
  have hwrite (owner : Owner) (howner : r.owner = some owner) (attr : String) (a : Attribute) :
      Store.Confined r.home r.owner r.store (r.store.write owner attr a) := by
    rw [howner]
    refine Store.confined_write hs ?_ attr a
    rintro name kind rfl
    obtain ⟨cursor, hcursor, rfl, rfl⟩ := owner_eq_component howner
    exact hcomponent cursor hcursor
  cases h with
  | unchanged => exact .refl ..
  | declared name value range => exact Store.confined_addVariable ..
  | overridden frame name value hscope =>
      have hhome : r.home = some frame.key := by simp [home, hscope]
      rw [hhome]
      exact Store.confined_setOverride ..
  | entered frame hheader => exact Store.confined_declareTrigger ..
  | added kind name hkind => exact Store.confined_addComponent hs kind name
  | assigned owner attr text howner => exact hwrite owner howner attr _
  | modulated cursor name hcursor => exact hwrite cursor.owner (hattr cursor hcursor) cursor.name _

end Reader

end Instrument.Document
