import Instrument.Proofs.Course
import Instrument.Proofs.Kinds
import Instrument.Proofs.Scoping

namespace Instrument

namespace Store

variable {s t : Store}

theorem SameVariables.symm (h : SameVariables s t) : SameVariables t s :=
  ⟨fun scope name => (h.variableAt?_eq scope name).symm, fun name key => (h.override?_eq name key).symm⟩

theorem isSome_head? (s : Store) (key : String) : (s.head? key).isSome = (s.trigger? key).isSome :=
  Option.isSome_map ..

end Store

namespace Document.Reader

open Text

variable {c : Catalog} {strict : Bool} {r r' : Reader} {line : List Char} {kind : LineKind} {t : Store}
  {owner : Owner} {attr : String} {a : Attribute} {N : String → Prop}

def declares (line : List Char) : Bool := String.ofList (firstWord (strip line)) == variableWord

theorem kindOf_ne_declaration (h : declares line = false) : r.kindOf c line ≠ .declaration := by
  have hword : String.ofList (firstWord (strip line)) ≠ variableWord := by simpa [declares] using h
  rw [kindOf, classify, if_neg hword]
  repeat' split
  all_goals simp

def entered? (c : Catalog) (line : List Char) (r : Reader) : Option String :=
  if r.passes line = false ∧ r.kindOf c line = .trigger then
    (headerFrame? c (indentOf line) (strip line)).map Frame.key
  else none

def declaredName? (c : Catalog) (line : List Char) (r : Reader) : Option String :=
  (r.named? c line).filter (isName ·.toList)

def namesIn (c : Catalog) (strict : Bool) (r : Reader) : List (List Char) → List String
  | [] => []
  | line :: rest => (r.declaredName? c line).toList ++ namesIn c strict (r.step c strict line) rest

def keysIn (c : Catalog) (strict : Bool) (r : Reader) : List (List Char) → List String
  | [] => []
  | line :: rest => (r.entered? c line).toList ++ keysIn c strict (r.step c strict line) rest

theorem isName_of_mem_namesIn {lines : List (List Char)} {name : String} :
    ∀ {r}, name ∈ namesIn c strict r lines → isName name.toList = true := by
  induction lines with
  | nil => simp [namesIn]
  | cons line rest ih =>
      intro r hname
      rw [namesIn, List.mem_append, Option.mem_toList, declaredName?, Option.filter_eq_some_iff] at hname
      exact hname.elim (fun hhere => hhere.2) ih

theorem Abreast.entered?_eq (h : Abreast N r r') (c : Catalog) (line : List Char) :
    r'.entered? c line = r.entered? c line := by
  rw [entered?, entered?, h.passes_eq, h.kindOf_eq]

theorem Effect.nameInfo?_eq (h : Effect c strict r kind t) (hdeclares : kind ≠ .declaration)
    (hadds : kind ≠ .component) (name : String) : t.nameInfo? name = r.store.nameInfo? name := by
  cases h with
  | unchanged => rfl
  | declared => exact absurd rfl hdeclares
  | overridden => exact absurd rfl hdeclares
  | entered frame hheader => exact (Store.keeps_declareTrigger ..).nameInfo?_eq name
  | added => exact absurd rfl hadds
  | assigned who attr text howner => exact (Store.keeps_write ..).nameInfo?_eq name
  | modulated cursor name' hattr => exact (Store.keeps_write ..).nameInfo?_eq name

theorem openComponent_of_no_name (indent : Nat) {content : List Char}
    (h : isName (Header.ofContent content).rest = false) (r : Reader) :
    ∃ complaint, r.openComponent c indent content = r.refuse indent complaint := by
  simp only [openComponent, h]
  split
  · exact ⟨_, rfl⟩
  · exact ⟨_, rfl⟩

theorem declaredName?_of_component (hpasses : r.passes line = false) (hkind : r.kindOf c line = .component)
    (hname : isName (Header.ofContent (strip line)).rest = true) :
    r.declaredName? c line = some (headerComponent (indentOf line) (strip line)).name := by
  rw [declaredName?, named?, hpasses, hkind, headerComponent]
  simp [Option.filter_some, hname]

theorem nameInfo?_openComponent (indent : Nat) (content : List Char) {name : String}
    (hname : name ≠ (headerComponent indent content).name) :
    (r.openComponent c indent content).store.nameInfo? name = r.store.nameInfo? name := by
  obtain ⟨-, h⟩ | ⟨told, complaint, htold, h⟩ := openComponent_cases c indent content r
  · rw [h]
    obtain ⟨-, hstore⟩ | ⟨-, -, hstore⟩ := Store.addComponent_bare r.store
      (headerComponent indent content).kind (headerComponent indent content).name r.home
    · simp only [follow, addHere, hstore]
    · simp only [follow, addHere, hstore]
      rw [Store.nameInfo?_placeComponent, Store.nameInfo?_withName, if_neg hname]
  · rw [h]
    rcases htold with rfl | ⟨outcome, hstore, rfl⟩
    · rfl
    · exact congrArg (·.nameInfo? name) hstore

theorem nameInfo?_step (hdeclares : declares line = false) {name : String}
    (hname : r.declaredName? c line ≠ some name) :
    (r.step c strict line).store.nameInfo? name = r.store.nameInfo? name := by
  cases hpasses : r.passes line with
  | true => rw [step_of_passes hpasses]
  | false =>
      have hkept := kindOf_ne_declaration (r := r) (c := c) hdeclares
      by_cases hadds : r.kindOf c line = .component
      · have hstep : r.step c strict line = (r.ready line).openComponent c (indentOf line) (strip line) :=
          step_of_kindOf hpasses hadds
        rw [hstep, ← store_ready line r]
        cases hvalid : isName (Header.ofContent (strip line)).rest with
        | false =>
            obtain ⟨complaint, hrefused⟩ := openComponent_of_no_name (c := c) (indentOf line) hvalid (r.ready line)
            rw [hrefused]
            rfl
        | true =>
            refine nameInfo?_openComponent _ _ ?_
            rintro rfl
            exact hname (declaredName?_of_component hpasses hadds hvalid)
      · exact ((effect_of_not_passes strict hpasses).nameInfo?_eq hkept hadds name).trans (by rw [store_ready])

theorem effect_step (c : Catalog) (strict : Bool) (r : Reader) (line : List Char) :
    ∃ kind, Effect c strict (r.ready line) kind (r.step c strict line).store ∧
      (declares line = false → kind ≠ .declaration) := by
  cases hpasses : r.passes line with
  | true =>
      have hsame : (r.step c strict line).store = (r.ready line).store := by
        rw [step_of_passes hpasses, store_ready]
      rw [hsame]
      exact ⟨.assignment, .unchanged _, fun _ => by decide⟩
  | false => exact ⟨_, effect_of_not_passes strict hpasses, kindOf_ne_declaration⟩

theorem nameInfo?_step_of_some {name : String} {info : NameInfo}
    (hinfo : r.store.nameInfo? name = some info) :
    (r.step c strict line).store.nameInfo? name = some info := by
  obtain ⟨kind, heffect, -⟩ := effect_step c strict r line
  exact heffect.nameInfo?_some (by rwa [store_ready])

theorem nameInfo?_readLines {lines : List (List Char)} (hplain : ∀ line ∈ lines, declares line = false)
    {name : String} :
    ∀ {r}, name ∉ namesIn c strict r lines →
      (readLines c strict r lines).store.nameInfo? name = r.store.nameInfo? name := by
  induction lines with
  | nil =>
      intro r _
      rfl
  | cons line rest ih =>
      intro r hname
      obtain ⟨hline, hrest⟩ := List.forall_mem_cons.1 hplain
      rw [namesIn, List.mem_append, not_or, Option.mem_toList] at hname
      exact (ih hrest hname.2).trans (nameInfo?_step hline hname.1)

theorem Effect.variableInfo?_eq (h : Effect c strict r kind t) (hdeclares : kind ≠ .declaration)
    (name : String) : t.variableInfo? name = r.store.variableInfo? name := by
  by_cases hadds : kind = .component
  · subst hadds
    cases h with
    | unchanged => rfl
    | added kind' name' hkind =>
        obtain ⟨-, hstore⟩ | ⟨-, hfree, hstore⟩ := Store.addComponent_bare r.store kind' name' r.home
        · rw [hstore]
        · -- A component is registered, which is no variable.
          rw [hstore, Store.variableInfo?, Store.nameInfo?_placeComponent, Store.nameInfo?_withName]
          split
          · next heq =>
              rw [Store.variableInfo?, heq, hfree]
              simpa [Option.filter_some, NameInfo.isVariable] using hkind
          · rfl
  · rw [Store.variableInfo?, h.nameInfo?_eq hdeclares hadds, Store.variableInfo?]

theorem variableInfo?_step (hdeclares : declares line = false) (name : String) :
    (r.step c strict line).store.variableInfo? name = r.store.variableInfo? name := by
  obtain ⟨kind, heffect, hkind⟩ := effect_step c strict r line
  rw [heffect.variableInfo?_eq (hkind hdeclares), store_ready]

theorem sameVariables_step (hdeclares : declares line = false) :
    r.store.SameVariables (r.step c strict line).store := by
  obtain ⟨kind, heffect, hkind⟩ := effect_step c strict r line
  have hsame := heffect.sameVariables (hkind hdeclares)
  rwa [store_ready] at hsame

theorem variables_readLines (c : Catalog) (strict : Bool) {lines : List (List Char)}
    (hplain : ∀ line ∈ lines, declares line = false) :
    ∀ r, (∀ name, (readLines c strict r lines).store.variableInfo? name = r.store.variableInfo? name) ∧
      r.store.SameVariables (readLines c strict r lines).store := by
  induction lines with
  | nil =>
      intro r
      exact ⟨fun _ => rfl, .refl _⟩
  | cons line rest ih =>
      intro r
      obtain ⟨hline, hrest⟩ := List.forall_mem_cons.1 hplain
      obtain ⟨hnames, hsame⟩ := ih hrest (r.step c strict line)
      exact ⟨fun name => (hnames name).trans (variableInfo?_step hline name),
        (sameVariables_step hline).trans hsame⟩

theorem isSome_trigger?_openTrigger (indent : Nat) (content : List Char) (key : String) :
    ((r.openTrigger c indent content).store.trigger? key).isSome =
      ((r.store.trigger? key).isSome || (headerFrame? c indent content).map Frame.key == some key) := by
  obtain ⟨hframe, complaint, hread⟩ | ⟨frame, told, hframe, htold, hread⟩ :=
    openTrigger_cases c indent content r
  · have hsame : (r.refuse indent complaint).store = r.store := rfl
    rw [hread, hframe, hsame]
    simp
  · have hstore : (told.into frame).store = r.store.declareTrigger frame.key frame.kind := by
      rcases htold with rfl | ⟨complaint, rfl⟩ <;> rfl
    rw [hread, hframe, hstore, ← Store.isSome_head?, Store.head?_declareTrigger, Option.map_some]
    by_cases heq : key = frame.key
    · simp [heq]
    · rw [if_neg heq, Store.isSome_head?]
      simp [Ne.symm heq]

theorem Linked.present_ready (h : Linked c r) (line : List Char) :
    AllOpen (r.ready line).store.Present (r.ready line) := by
  refine (h.ready line).allOpen.mono ?_
  intro who hwho
  cases who with
  | component name kind => trivial
  | trigger key kind =>
      obtain ⟨x, hx, -⟩ := hwho
      rw [Store.Present, Store.isSome_head?, hx]
      rfl

theorem isSome_trigger?_step (h : Linked c r) (key : String) :
    ((r.step c strict line).store.trigger? key).isSome =
      ((r.store.trigger? key).isSome || r.entered? c line == some key) := by
  cases hpasses : r.passes line with
  | true =>
      rw [step_of_passes hpasses]
      simp [entered?, hpasses]
  | false =>
      by_cases hkind : r.kindOf c line = .trigger
      · have hentered : r.entered? c line =
            (headerFrame? c (indentOf line) (strip line)).map Frame.key := if_pos ⟨hpasses, hkind⟩
        rw [step_of_kindOf hpasses hkind, act, isSome_trigger?_openTrigger, store_ready, hentered]
      · have hentered : r.entered? c line = none := if_neg fun hboth => hkind hboth.2
        have hsame := (effect_of_not_passes strict hpasses).head?_eq hkind (h.present_ready line) key
        rw [hentered, ← Store.isSome_head?, hsame, store_ready, Store.isSome_head?]
        simp

theorem isSome_trigger?_readLines (hkeys : DistinctKeys c) (key : String) (lines : List (List Char)) :
    ∀ {r}, Linked c r → (((readLines c strict r lines).store.trigger? key).isSome ↔
      (r.store.trigger? key).isSome ∨ key ∈ keysIn c strict r lines) := by
  induction lines with
  | nil =>
      intro r _
      simp [readLines, keysIn]
  | cons line rest ih =>
      intro r h
      have hrest : ((readLines c strict r (line :: rest)).store.trigger? key).isSome ↔
          ((r.step c strict line).store.trigger? key).isSome ∨
            key ∈ keysIn c strict (r.step c strict line) rest := ih (h.step hkeys line)
      rw [hrest, isSome_trigger?_step h, Bool.or_eq_true, beq_iff_eq, keysIn, List.mem_append,
        Option.mem_toList, or_assoc]

theorem AllOpen.step {p : Owner → Prop} (h : AllOpen p r) (strict : Bool)
    (hname : ∀ name kind, r.declaredName? c line = some name → p (.component name kind))
    (hkey : ∀ key kind, r.entered? c line = some key → p (.trigger key kind)) :
    AllOpen p (r.step c strict line) := by
  have hnext : AllOpen p { r with line := r.line + 1 } := h.of_sameOpen ⟨rfl, rfl, rfl, rfl⟩
  cases hpasses : r.passes line with
  | true =>
      rw [step_of_passes hpasses]
      exact hnext
  | false =>
      rw [step_of_not_passes hpasses]
      refine (hnext.settle (indentOf line)).of_opens (opens_dispatch ..) ?_ ?_
      · intro frame hframe
        obtain ⟨hkind, hheader⟩ := eventOf_eq_trigger_iff.1 hframe
        have hentered : r.entered? c line = some frame.key := by
          rw [entered?, if_pos ⟨hpasses, hkind⟩, hheader, Option.map_some]
        exact hkey _ _ hentered
      · intro cursor hcursor
        obtain ⟨hkind, hopened, rfl⟩ := eventOf_eq_component_iff.1 hcursor
        have hvalid : isName (Header.ofContent (strip line)).rest = true := by
          refine eq_true_of_ne_false fun hno => ?_
          obtain ⟨complaint, hrefused⟩ := openComponent_of_no_name (c := c) (indentOf line) hno
            (r.ready line)
          rw [ready] at hrefused
          rw [hrefused] at hopened
          cases hopened
        exact hname _ _ (declaredName?_of_component hpasses hkind hvalid)

theorem AllOpen.written {p : Owner → Prop} (h : AllOpen p r) (strict : Bool)
    (hwrites : r.written? c strict line = some ((owner, attr), a)) : p owner := by
  have hnext : AllOpen p { r with line := r.line + 1 } := h.of_sameOpen ⟨rfl, rfl, rfl, rfl⟩
  have hready : AllOpen p (r.ready line) := hnext.settle (indentOf line)
  rw [written?] at hwrites
  cases hassigned : r.assignment? c line with
  | some given =>
      obtain ⟨⟨who, attr'⟩, text⟩ := given
      rw [hassigned] at hwrites
      cases hwrites
      exact hready.owner (step_of_assignment? strict hassigned).1
  | none =>
      rw [hassigned] at hwrites
      obtain ⟨⟨⟨who, attr'⟩, name⟩, hattached, heq⟩ := Option.map_eq_some_iff.1 hwrites
      cases heq
      obtain ⟨cursor, hcursor, rfl, -⟩ := step_of_attachment? strict hattached
      exact hready.attr cursor hcursor

end Document.Reader

end Instrument
