import Instrument.Proofs.Past
import Mathlib.Order.Monotone.Basic

namespace Instrument

def Variable.renumber (ρ : Nat → Nat) (v : Variable) : Variable :=
  { v with line := v.line.map fun line => (ρ line.toNat : Int) }

namespace Store

/-- A store with the numbers of all lines renewed: those are kept for variables alone. -/
def renumber (ρ : Nat → Nat) (s : Store) : Store :=
  { s with
    globalVariables := s.globalVariables.map fun _ => Variable.renumber ρ
    localVariables := s.localVariables.map fun _ table => table.map fun _ => Variable.renumber ρ }

end Store

def Outcome.renumber {α : Type} (ρ : Nat → Nat) (outcome : Outcome α) : Outcome α :=
  { outcome with store := outcome.store.renumber ρ }

namespace Store

variable (ρ : Nat → Nat) (s : Store)

@[simp] theorem nameInfo?_renumber (name : String) :
    (s.renumber ρ).nameInfo? name = s.nameInfo? name := rfl

@[simp] theorem read_renumber (owner : Owner) (attr : String) :
    (s.renumber ρ).read owner attr = s.read owner attr := by
  cases owner <;> rfl

theorem placeComponent_renumber (c : Component) :
    (s.renumber ρ).placeComponent c = (s.placeComponent c).renumber ρ := by
  rw [placeComponent, placeComponent]
  cases c.scope <;> rfl

theorem register?_renumber (name : String) (info : NameInfo) :
    (s.renumber ρ).register? name info = (s.register? name info).map (renumber ρ) := by
  have htaken : (s.renumber ρ).isRegistered name = s.isRegistered name := rfl
  simp only [register?, htaken]
  split <;> rfl

theorem addComponent_renumber (kind name : String) (scope : ScopeKind) (key : Option String)
    (attributes : List (String × Datum)) :
    (s.renumber ρ).addComponent kind name scope key attributes =
      (s.addComponent kind name scope key attributes).renumber ρ := by
  simp only [addComponent, register?_renumber]
  split
  · rfl
  · cases s.register? name ⟨scope, kind, key⟩ with
    | none => rfl
    | some registered =>
        simp only [Option.map_some]
        split
        · rfl
        · rw [placeComponent_renumber]
          rfl

theorem placeVariable_renumber (v : Variable) :
    (s.renumber ρ).placeVariable (v.renumber ρ) = (s.placeVariable v).renumber ρ := by
  have hscope : (v.renumber ρ).scope = v.scope := rfl
  rw [placeVariable, placeVariable, hscope]
  cases v.scope with
  | global =>
      have hglobal : (s.renumber ρ).globalVariables.insert v.name (v.renumber ρ) =
          (s.globalVariables.insert v.name v).map fun _ => Variable.renumber ρ :=
        (Table.map_insert (fun _ => Variable.renumber ρ) s.globalVariables v.name v).symm
      simp only [renumber] at hglobal ⊢
      simp only [Variable.renumber, hglobal] at hglobal ⊢
  | trigger =>
      have htable : ((s.renumber ρ).localVariables.get? (v.key.getD "")).getD .empty =
          ((s.localVariables.get? (v.key.getD "")).getD .empty).map fun _ => Variable.renumber ρ := by
        simp only [renumber, Table.get?_map]
        cases s.localVariables.get? (v.key.getD "") <;> rfl
      simp only [Variable.renumber] at htable ⊢
      rw [htable]
      simp only [renumber, Table.map_insert]
      rfl

theorem addVariable_renumber (name : String) (d : Datum) (scope : ScopeKind) (key : Option String)
    (lower upper : Datum) (line : Option Int) :
    (s.renumber ρ).addVariable name d scope key lower upper (line.map fun line => (ρ line.toNat : Int)) =
      (s.addVariable name d scope key lower upper line).renumber ρ := by
  have hrenews : (s.renumber ρ).renews name scope key = s.renews name scope key := rfl
  have hregistered : (if (s.renumber ρ).renews name scope key then some (s.renumber ρ)
        else (s.renumber ρ).register? name ⟨scope, variableKind, scope.keyFor key⟩) =
      (if s.renews name scope key then some s
        else s.register? name ⟨scope, variableKind, scope.keyFor key⟩).map (renumber ρ) := by
    rw [hrenews, register?_renumber]
    split <;> rfl
  simp only [addVariable, hregistered]
  split
  · rfl
  · cases (if s.renews name scope key then some s
        else s.register? name ⟨scope, variableKind, scope.keyFor key⟩) with
    | none => rfl
    | some store =>
        simp only [Option.map_some]
        split
        · rfl
        · next value _ =>
            have hplace := placeVariable_renumber ρ store
              ⟨name, value, scope, scope.keyFor key, lower, upper, line⟩
            simp only [Variable.renumber] at hplace
            rw [hplace]
            rfl

theorem setOverride_renumber (name : String) (d : Datum) (key : String) :
    (s.renumber ρ).setOverride name d key = (s.setOverride name d key).renumber ρ := by
  rw [setOverride, setOverride]
  split <;> rfl

theorem changeComponent_renumber (name : String) (f : Component → Component) :
    (s.renumber ρ).changeComponent name f = (s.changeComponent name f).renumber ρ := by
  have hinfo : (s.renumber ρ).componentInfo? name = s.componentInfo? name := rfl
  rw [changeComponent, changeComponent, hinfo]
  cases s.componentInfo? name with
  | none => rfl
  | some info =>
      simp only [changeTables]
      cases info.scope <;> rfl

theorem updateComponent_renumber (name attr : String) (f : Cell → Except DatumError Cell) :
    (s.renumber ρ).updateComponent name attr f = (s.updateComponent name attr f).renumber ρ := by
  have hfound : (s.renumber ρ).component? name = s.component? name := rfl
  rw [updateComponent, updateComponent, hfound]
  cases s.component? name with
  | none => rfl
  | some c =>
      simp only
      split
      · rfl
      · rw [changeComponent_renumber]
        rfl

theorem updateTrigger_renumber (key attr : String) (f : Cell → Except DatumError Cell) :
    (s.renumber ρ).updateTrigger key attr f = (s.updateTrigger key attr f).renumber ρ := by
  have hfound : (s.renumber ρ).triggerOrFresh key "" = s.triggerOrFresh key "" := rfl
  simp only [updateTrigger, hfound]
  split <;> rfl

theorem write_renumber (owner : Owner) (attr : String) (a : Attribute) :
    (s.renumber ρ).write owner attr a = (s.write owner attr a).renumber ρ := by
  cases owner with
  | component name kind =>
      simp only [write, updateComponentAttribute, updateComponentModulation, updateComponent_renumber,
        Outcome.renumber]
  | trigger key kind =>
      simp only [write, setTriggerAttribute, setTriggerModulation, updateTrigger_renumber,
        Outcome.renumber]

end Store

namespace Document

open Text

def Issue.renumber (ρ : Nat → Nat) (i : Issue) : Issue := { i with line := ρ i.line }

def Frame.relay (f : Nat → Nat) (frame : Frame) : Frame := { frame with indent := f frame.indent }

def ComponentCursor.relay (f : Nat → Nat) (cursor : ComponentCursor) : ComponentCursor :=
  { cursor with indent := f cursor.indent }

def AttributeCursor.relay (f : Nat → Nat) (cursor : AttributeCursor) : AttributeCursor :=
  { cursor with indent := f cursor.indent }

namespace Reader

/-- A reader with other indents and other line numbers. -/
def relay (f ρ : Nat → Nat) (r : Reader) : Reader where
  store := r.store.renumber ρ
  frames := r.frames.map (Frame.relay f)
  component := r.component.map (ComponentCursor.relay f)
  trigger := r.trigger.map (Frame.relay f)
  attr := r.attr.map (AttributeCursor.relay f)
  skip := r.skip.map f
  line := ρ r.line
  issues := r.issues.map (Issue.renumber ρ)
  attributeLines := r.attributeLines.map fun entry => (entry.1, ρ entry.2)
  modulationLines := r.modulationLines.map fun entry => (entry.1, ρ entry.2)
  notes := r.notes

section Relay

variable (f ρ : Nat → Nat) (r : Reader) (c : Catalog) (strict : Bool)

@[simp] theorem complain_relay (complaint : Complaint) :
    (r.relay f ρ).complain complaint = (r.complain complaint).relay f ρ := by
  simp [complain, complainAt, relay, Issue.renumber]

@[simp] theorem complainAll_relay (complaints : List Complaint) :
    (r.relay f ρ).complainAll complaints = (r.complainAll complaints).relay f ρ := by
  simp [complainAll_eq, relay, Issue.renumber, Function.comp_def]

@[simp] theorem refuse_relay (indent : Nat) (complaint : Complaint) :
    (r.relay f ρ).refuse (f indent) complaint = (r.refuse indent complaint).relay f ρ := by
  simp only [refuse, complain_relay]
  rfl

@[simp] theorem follow_relay {α : Type} (outcome : Outcome α) :
    (r.relay f ρ).follow (outcome.renumber ρ) = (r.follow outcome).relay f ρ := rfl

@[simp] theorem scope_relay : (r.relay f ρ).scope = r.scope.map (Frame.relay f) := by
  rw [scope, scope, relay, List.head?_map, Option.filter_map]
  rfl

@[simp] theorem owner_relay : (r.relay f ρ).owner = r.owner := by
  rw [owner, owner, relay]
  cases r.component with
  | some cursor => rfl
  | none => cases r.trigger <;> rfl

theorem readerVariable_relay (name : String) (value : Value) (range : Option Interval)
    (scope : ScopeKind) (key : Option String) :
    (r.relay f ρ).addVariable name value range scope key =
      (r.addVariable name value range scope key).renumber ρ :=
  Store.addVariable_renumber ρ r.store name (.value value) scope key _ _ (some (r.line : Int))

theorem declareGlobal_relay (name : String) (value : Value) (range : Option Interval) :
    (r.relay f ρ).declareGlobal name value range = (r.declareGlobal name value range).relay f ρ := by
  simp only [declareGlobal, readerVariable_relay]
  have hanswer : ((r.addVariable name value range .global none).renumber ρ).answer =
      (r.addVariable name value range .global none).answer := rfl
  rw [hanswer]
  split <;> simp

theorem declareIn_relay (frame : Frame) (name : String) (value : Value) (range : Option Interval) :
    (r.relay f ρ).declareIn c (frame.relay f) name value range =
      (r.declareIn c frame name value range).relay f ρ := by
  have hframe (told : Reader) : told.declareIn c (frame.relay f) name value range =
      told.declareIn c frame name value range := rfl
  have hinfo : (r.relay f ρ).store.nameInfo? name = r.store.nameInfo? name := rfl
  have hoverride (told : Reader) : (told.relay f ρ).store.setOverride name (.value value) frame.key =
      (told.store.setOverride name (.value value) frame.key).renumber ρ :=
    Store.setOverride_renumber ..
  rw [hframe]
  simp only [declareIn, hinfo, readerVariable_relay]
  split
  · simp
  · split
    · simp
    · split
      · simp
      · cases range <;> simp [hoverride]

theorem declare_relay (content : List Char) :
    (r.relay f ρ).declare c content = (r.declare c content).relay f ρ := by
  have hvalue (text : List Char) : (r.relay f ρ).variableValue text = r.variableValue text := rfl
  have hhere (told : Reader) (name : String) (value : Value) (range : Option Interval) :
      (told.relay f ρ).declareHere c name value range =
        (told.declareHere c name value range).relay f ρ := by
    simp only [declareHere, scope_relay]
    cases told.scope with
    | none => exact declareGlobal_relay ..
    | some frame => exact declareIn_relay ..
  cases hparts : declaration? content with
  | none => simp only [declare, hparts, complain_relay]
  | some parts =>
      cases hbrackets : bracketed? parts.2 with
      | none =>
          simp only [declare, hparts, hbrackets, hvalue]
          exact hhere ..
      | some brackets =>
          cases hrange : Interval.read? brackets.inside with
          | none =>
              simp only [declare, hparts, hbrackets, hvalue, Option.bind_some, hrange, complain_relay]
              exact hhere ..
          | some range =>
              simp only [declare, hparts, hbrackets, hvalue, Option.bind_some, hrange]
              exact hhere ..

theorem openTrigger_relay (indent : Nat) (content : List Char) :
    (r.relay f ρ).openTrigger c (f indent) content = (r.openTrigger c indent content).relay f ρ := by
  have henter (told : Reader) (kind : String) (name : Option String) :
      (told.relay f ρ).enter kind name (f indent) = (told.enter kind name indent).relay f ρ := rfl
  simp only [openTrigger]
  repeat' split
  all_goals simp [henter]

theorem openComponent_relay (indent : Nat) (content : List Char) :
    (r.relay f ρ).openComponent c (f indent) content =
      (r.openComponent c indent content).relay f ρ := by
  have hadd (kind name : String) (scope : ScopeKind) (key : Option String) :
      (r.relay f ρ).addComponent kind name (f indent) scope key =
        (r.addComponent kind name indent scope key).relay f ρ := by
    have houtcome : (r.relay f ρ).store.addComponent kind name scope key [] =
        (r.store.addComponent kind name scope key []).renumber ρ := Store.addComponent_renumber ..
    have hanswer : ((r.store.addComponent kind name scope key []).renumber ρ).answer =
        (r.store.addComponent kind name scope key []).answer := rfl
    simp only [addComponent, houtcome, hanswer]
    split
    · simp only [follow_relay]
      rfl
    · simp
  simp only [openComponent, scope_relay]
  cases r.scope with
  | none =>
      simp only [Option.map_none]
      repeat' split
      all_goals simp [hadd]
  | some frame =>
      simp only [Option.map_some, Frame.relay]
      repeat' split
      all_goals simp [hadd]

theorem assignLine_relay (indent : Nat) (content : List Char) :
    (r.relay f ρ).assignLine c strict (f indent) content =
      (r.assignLine c strict indent content).relay f ρ := by
  have hwrite (owner : Owner) (attr : String) (text : List Char) :
      (r.relay f ρ).writeLine c strict (f indent) owner attr text =
        (r.writeLine c strict indent owner attr text).relay f ρ := by
    have hread : (r.relay f ρ).store.read owner attr = r.store.read owner attr :=
      Store.read_renumber ..
    have hinfo (name : String) : (r.relay f ρ).store.nameInfo? name = r.store.nameInfo? name := rfl
    have hstore (a : Attribute) : (r.relay f ρ).store.write owner attr a =
        (r.store.write owner attr a).renumber ρ := Store.write_renumber ..
    simp only [writeLine, hread, hinfo, hstore]
    split
    · simp only [complain_relay, complainAll_relay]
      rfl
    · simp only [complainAll_relay]
      rfl
  simp only [assignLine, owner_relay]
  repeat' split
  all_goals simp [hwrite]

theorem modulate_relay (content : List Char) :
    (r.relay f ρ).modulate content = (r.modulate content).relay f ρ := by
  have hattach (name : String) : (r.relay f ρ).attach name = (r.attach name).relay f ρ := by
    have hattr : (r.relay f ρ).attr = r.attr.map (AttributeCursor.relay f) := rfl
    simp only [attach, hattr]
    cases r.attr with
    | none => simp
    | some cursor =>
        have hread : (r.relay f ρ).store.read cursor.owner cursor.name =
            r.store.read cursor.owner cursor.name := Store.read_renumber ..
        have hstore (a : Attribute) : (r.relay f ρ).store.write cursor.owner cursor.name a =
            (r.store.write cursor.owner cursor.name a).renumber ρ := Store.write_renumber ..
        simp only [Option.map_some, AttributeCursor.relay, hread, hstore]
        rfl
  simp only [modulate]
  repeat' split
  all_goals simp [hattach]

theorem dispatch_relay {indent : Nat} (hzero : f indent = 0 ↔ indent = 0) (content : List Char) :
    (r.relay f ρ).dispatch c strict (f indent) content =
      (r.dispatch c strict indent content).relay f ρ := by
  have hkind (word : String) : (r.relay f ρ).classify c (f indent) word = r.classify c indent word := by
    have hbody : (r.relay f ρ).continuesBody c (f indent) word = r.continuesBody c indent word := by
      simp only [continuesBody, relay, hzero, Option.isSome_map]
      cases r.trigger <;> rfl
    simp only [classify, hbody]
  simp only [dispatch, hkind]
  cases r.classify c indent (String.ofList (firstWord content)) with
  | declaration => exact declare_relay ..
  | trigger => exact openTrigger_relay ..
  | modulation => exact modulate_relay ..
  | assignment => exact assignLine_relay ..
  | component => exact openComponent_relay ..

end Relay

/-- The indents that a reader compares with those of lines to come. -/
structure Measured (widths : Set Nat) (r : Reader) : Prop where
  frame : ∀ frame ∈ r.frames, frame.indent ∈ widths
  component : ∀ cursor, r.component = some cursor → cursor.indent ∈ widths
  attr : ∀ cursor, r.attr = some cursor → cursor.indent ∈ widths
  skip : ∀ indent, r.skip = some indent → indent ∈ widths

section Settle

variable {f : Nat → Nat} {widths : Set Nat} {r : Reader} {indent : Nat}

theorem dropWhile_congr {α : Type} {p q : α → Bool} {l : List α} (h : ∀ a ∈ l, p a = q a) :
    l.dropWhile p = l.dropWhile q := by
  induction l with
  | nil => rfl
  | cons a rest ih =>
      obtain ⟨ha, hrest⟩ := List.forall_mem_cons.1 h
      rw [List.dropWhile_cons, List.dropWhile_cons, ha, ih hrest]

theorem filter_congr {α : Type} {p q : α → Bool} {o : Option α} (h : ∀ a, o = some a → p a = q a) :
    o.filter p = o.filter q := by
  cases o with
  | none => rfl
  | some a => rw [Option.filter_some, Option.filter_some, h a rfl]

variable (hf : StrictMonoOn f widths) (hr : Measured widths r) (hindent : indent ∈ widths)
include hf hr hindent

theorem skips_relay (ρ : Nat → Nat) : (r.relay f ρ).skips (f indent) = r.skips indent := by
  rw [skips, skips, relay]
  cases hskip : r.skip with
  | none => rfl
  | some skip => simp [hf.lt_iff_lt (hr.skip skip hskip) hindent]

theorem closes_relay (ρ : Nat → Nat) : (r.relay f ρ).closes (f indent) = r.closes indent := by
  rw [closes, closes, relay, List.head?_map]
  cases hframes : r.frames with
  | nil => rfl
  | cons frame rest =>
      have hframe := hr.frame frame (by simp [hframes])
      simp [Frame.relay, hf.le_iff_le hindent hframe]

theorem settle_relay (ρ : Nat → Nat) :
    (r.relay f ρ).settle (f indent) = (r.settle indent).relay f ρ := by
  have hframes : (r.frames.map (Frame.relay f)).dropWhile (f indent ≤ ·.indent) =
      (r.frames.dropWhile (indent ≤ ·.indent)).map (Frame.relay f) := by
    rw [List.dropWhile_map]
    congr 1
    apply dropWhile_congr
    intro frame hframe
    simp [Frame.relay, hf.le_iff_le hindent (hr.frame frame hframe)]
  have hcomponent : (r.component.map (ComponentCursor.relay f)).filter (·.indent < f indent) =
      (r.component.filter (·.indent < indent)).map (ComponentCursor.relay f) := by
    rw [Option.filter_map]
    congr 1
    apply filter_congr
    intro cursor hcursor
    simp [ComponentCursor.relay, hf.lt_iff_lt (hr.component cursor hcursor) hindent]
  have hattr : (r.attr.map (AttributeCursor.relay f)).filter (·.indent < f indent) =
      (r.attr.filter (·.indent < indent)).map (AttributeCursor.relay f) := by
    rw [Option.filter_map]
    congr 1
    apply filter_congr
    intro cursor hcursor
    simp [AttributeCursor.relay, hf.lt_iff_lt (hr.attr cursor hcursor) hindent]
  rw [settle_eq, settle_eq, closes_relay hf hr hindent]
  simp only [relay, hframes, hcomponent, hattr, List.head?_map, Option.filter_map]
  cases r.closes indent <;> rfl

omit hf hindent in
theorem Measured.settle (indent : Nat) : Measured widths (r.settle indent) where
  frame := by
    rw [frames_settle]
    intro frame hframe
    exact hr.frame frame ((List.dropWhile_suffix _).subset hframe)
  component := by
    intro cursor hcursor
    rw [component_settle] at hcursor
    split at hcursor
    · cases hcursor
    · exact hr.component cursor (Option.filter_eq_some_iff.1 hcursor).1
  attr := by
    intro cursor hcursor
    rw [settle_eq] at hcursor
    simp only at hcursor
    split at hcursor
    · cases hcursor
    · exact hr.attr cursor (Option.filter_eq_some_iff.1 hcursor).1
  skip := by
    intro skip hskip
    rw [settle_eq] at hskip
    cases hskip

end Settle

end Reader

end Document

end Instrument
