import Instrument.Catalog.Validation
import Instrument.Proofs.Holdings
import Instrument.Proofs.Nesting

namespace Instrument

/-- The other kind goes on with an underscore where the kind ends, and the name is made of the rest of the
other kind and the other name. -/
def Extends (kind : String) (name : Option String) (other : String) (otherName : Option String) : Prop :=
  ∃ more, other = kind ++ "_" ++ more ∧ name = some (makeScopeKey more otherName)

section Keys

variable {kind other text otherText : String} {name otherName : Option String}

theorem makeScopeKey_some (h : text ≠ "") : makeScopeKey kind (some text) = kind ++ "_" ++ text := if_neg h

theorem toList_makeScopeKey (h : text ≠ "") :
    (makeScopeKey kind (some text)).toList = kind.toList ++ '_' :: text.toList := by
  rw [makeScopeKey_some h, String.toList_append, String.toList_append, List.append_assoc]
  rfl

theorem triggerKindOfKey_makeScopeKey_iff :
    triggerKindOfKey (makeScopeKey kind name) = kind ↔ '_' ∉ kind.toList := by
  refine ⟨?_, fun h => Document.triggerKindOfKey_makeScopeKey h name⟩
  intro h hmem
  rw [← h, triggerKindOfKey, String.toList_ofList] at hmem
  exact absurd (List.mem_takeWhile_imp hmem) (by decide)

theorem makeScopeKey_eq_of_extends (hname : name ≠ some "") (hother : otherName ≠ some "")
    (h : Extends kind name other otherName) : makeScopeKey kind name = makeScopeKey other otherName := by
  obtain ⟨more, rfl, rfl⟩ := h
  apply String.toList_inj.1
  rw [toList_makeScopeKey fun hempty => hname (congrArg some hempty)]
  cases otherName with
  | none => simp [makeScopeKey]
  | some text =>
      have htext : text ≠ "" := fun hempty => hother (congrArg some hempty)
      simp [toList_makeScopeKey htext]

theorem extends_of_append {more : List Char} (hother : otherText ≠ "")
    (hkind : other.toList = kind.toList ++ '_' :: more)
    (htext : text.toList = more ++ '_' :: otherText.toList) :
    Extends kind (some text) other (some otherText) := by
  refine ⟨String.ofList more, ?_, congrArg some ?_⟩
  · apply String.toList_inj.1
    simp [hkind]
  · apply String.toList_inj.1
    rw [htext, toList_makeScopeKey hother, String.toList_ofList]

theorem eq_or_extends_of_append (htext : text ≠ "") (hother : otherText ≠ "")
    (h : kind.toList ++ '_' :: text.toList = other.toList ++ '_' :: otherText.toList) :
    kind = other ∧ text = otherText ∨ Extends kind (some text) other (some otherText) ∨
      Extends other (some otherText) kind (some text) := by
  rcases List.append_eq_append_iff.1 h with ⟨more, hmore, heq⟩ | ⟨more, hmore, heq⟩
  · cases more with
    | nil =>
        rw [List.append_nil] at hmore
        exact .inl ⟨(String.toList_inj.1 hmore).symm, String.toList_inj.1 (List.cons.inj heq).2⟩
    | cons c more =>
        obtain ⟨rfl, htail⟩ := List.cons.inj heq
        exact .inr (.inl (extends_of_append hother hmore htail))
  · cases more with
    | nil =>
        rw [List.append_nil] at hmore
        exact .inl ⟨String.toList_inj.1 hmore, (String.toList_inj.1 (List.cons.inj heq).2).symm⟩
    | cons c more =>
        obtain ⟨rfl, htail⟩ := List.cons.inj heq
        exact .inr (.inr (extends_of_append htext hmore htail))

theorem makeScopeKey_eq_iff (hname : name ≠ some "") (hother : otherName ≠ some "") :
    makeScopeKey kind name = makeScopeKey other otherName ↔
      kind = other ∧ name = otherName ∨ Extends kind name other otherName ∨
        Extends other otherName kind name := by
  constructor
  · intro h
    cases name with
    | none =>
        cases otherName with
        | none => exact .inl ⟨h, rfl⟩
        | some otherText =>
            have htext : otherText ≠ "" := fun hempty => hother (congrArg some hempty)
            rw [makeScopeKey_some htext] at h
            exact .inr (.inr ⟨otherText, h, rfl⟩)
    | some text =>
        have htext : text ≠ "" := fun hempty => hname (congrArg some hempty)
        cases otherName with
        | none =>
            rw [makeScopeKey_some htext] at h
            exact .inr (.inl ⟨text, h.symm, rfl⟩)
        | some otherText =>
            have htext' : otherText ≠ "" := fun hempty => hother (congrArg some hempty)
            have hlists := congrArg String.toList h
            rw [toList_makeScopeKey htext, toList_makeScopeKey htext'] at hlists
            simpa using eq_or_extends_of_append htext htext' hlists
  · rintro (⟨rfl, rfl⟩ | hextends | hextends)
    · rfl
    · exact makeScopeKey_eq_of_extends hname hother hextends
    · exact (makeScopeKey_eq_of_extends hother hname hextends).symm

end Keys

namespace Store

variable {s : Store} {key kind : String}

theorem mem_triggersOfKind : key ∈ s.triggersOfKind kind ↔ (s.head? key).map Prod.snd = some kind := by
  have hentry : (∃ x : Trigger, (key, x) ∈ s.triggers.entries ∧ x.kind = kind) ↔
      ∃ x, s.trigger? key = some x ∧ x.kind = kind := by
    refine exists_congr fun x => and_congr_left fun _ => ?_
    exact ⟨Document.lookup_of_mem s.triggers.distinct, Document.mem_of_lookup⟩
  rw [triggersOfKind, List.mem_map, head?, Option.map_map, Option.map_eq_some_iff]
  refine Iff.trans ?_ hentry
  simp

end Store

namespace Document

open Text

theorem name_ne_of_takesHeader {c : Catalog} {kind : String} {name : Option String}
    (h : TakesHeader c kind name) : name ≠ some "" := by
  rintro rfl
  obtain ⟨schema, -, -, text, hempty, htext, -⟩ := h
  exact htext (String.ofList_eq_empty_iff.1 hempty.symm)

def Event.header? (e : Event) : Option (String × String) := e.frame?.map fun frame => (frame.key, frame.kind)

namespace Reader

variable {c : Catalog} {strict : Bool} {r r' : Reader} {line : List Char}

def headers (c : Catalog) (strict : Bool) (r : Reader) (lines : List (List Char)) :
    List (String × String) :=
  (r.events c strict lines).filterMap Event.header?

theorem takesHeader_of_mem_headers {lines : List (List Char)} {key kind : String} :
    ∀ {r}, (key, kind) ∈ headers c strict r lines →
      ∃ name, TakesHeader c kind name ∧ key = makeScopeKey kind name := by
  induction lines with
  | nil =>
      intro r h
      cases h
  | cons line rest ih =>
      intro r h
      rw [headers, events, List.filterMap_append, List.mem_append] at h
      refine h.elim ?_ ih
      intro hhere
      obtain ⟨e, he, hheader⟩ := List.mem_filterMap.1 hhere
      rw [Option.mem_toList, event?] at he
      split at he
      · cases he
      · obtain ⟨frame, hframe, heq⟩ := Option.map_eq_some_iff.1 hheader
        cases heq
        cases e with
        | trigger frame' =>
            cases hframe
            exact takesHeader_eventOf (Option.some.inj he)
        | _ => cases hframe

theorem head?_dispatch_of_no_frame {indent : Nat} {content : List Char} (hpresent : AllOpen r.store.Present r)
    (h : ∀ frame, r.eventOf c indent content ≠ .trigger frame) (key : String) :
    (r.dispatch c strict indent content).store.head? key = r.store.head? key := by
  by_cases hkind : r.classify c indent (String.ofList (firstWord content)) = .trigger
  · obtain ⟨-, complaint, hread⟩ | ⟨frame, -, hframe, -⟩ := openTrigger_cases c indent content r
    · rw [dispatch, hkind, act, hread]
      rfl
    · exact absurd (eventOf_eq_trigger_iff.2 ⟨hkind, hframe⟩) (h frame)
  · exact (effect_dispatch indent content).head?_eq hkind hpresent key

theorem kind_step {p : String → Prop} (h : Rooted c p r) (strict : Bool) (line : List Char) (key : String) :
    ((r.step c strict line).store.head? key).map Prod.snd =
      ((r.store.head? key).map Prod.snd).or (((r.event? c line).bind Event.header?).toList.lookup key) := by
  have hstore : (r.ready line).store = r.store := store_ready line r
  cases hpasses : r.passes line with
  | true =>
      rw [step_of_passes hpasses, event?, if_pos hpasses]
      simp
  | false =>
      have hnext : Rooted c p { r with line := r.line + 1 } :=
        ⟨h.headed, h.kinds, ⟨h.present.frame, h.present.trigger, h.present.component, h.present.attr⟩⟩
      have hready : Rooted c p (r.ready line) := hnext.settle (indentOf line)
      have hopens : Opens (r.ready line) ((r.ready line).dispatch c strict (indentOf line) (strip line))
          ((r.ready line).eventOf c (indentOf line) (strip line)) := opens_dispatch ..
      rw [step_of_not_passes hpasses, event?, if_neg (ne_true_of_eq_false hpasses), Option.bind_some, ← hstore]
      cases hevent : (r.ready line).eventOf c (indentOf line) (strip line) with
      | trigger frame =>
          obtain ⟨name, -, hkey⟩ := takesHeader_eventOf hevent
          rw [hevent] at hopens
          cases hopens with
          | trigger _ _ _ _ _ hdeclared =>
              rw [hdeclared, Store.head?_declareTrigger]
              by_cases hsame : key = frame.key
              · subst hsame
                rw [if_pos rfl]
                cases (r.ready line).store.head? frame.key with
                | none => simp [Event.header?, Event.frame?, hkey, kind_freshTrigger]
                | some head => rfl
              · simp [Event.header?, Event.frame?, hsame, List.lookup_cons, beq_false_of_ne hsame]
      | component cursor =>
          rw [head?_dispatch_of_no_frame hready.present (by simp [hevent])]
          exact (Option.or_none ..).symm
      | plain indent =>
          rw [head?_dispatch_of_no_frame hready.present (by simp [hevent])]
          exact (Option.or_none ..).symm

theorem kind_readLines {p : String → Prop} (hp : ∀ kind, p kind) (strict : Bool) (key : String)
    (lines : List (List Char)) : ∀ {r}, Rooted c p r →
      ((readLines c strict r lines).store.head? key).map Prod.snd =
        ((r.store.head? key).map Prod.snd).or ((headers c strict r lines).lookup key) := by
  induction lines with
  | nil =>
      intro r _
      exact (Option.or_none ..).symm
  | cons line rest ih =>
      intro r h
      have hstep : Rooted c p (r.step c strict line) := h.step fun _ => hp _
      have hheaders : headers c strict r (line :: rest) =
          ((r.event? c line).bind Event.header?).toList ++ headers c strict (r.step c strict line) rest := by
        rw [headers, events, List.filterMap_append]
        congr 1
        cases r.event? c line <;> rfl
      rw [hheaders, List.lookup_append, ← Option.or_assoc, ← kind_step h strict line]
      exact ih hstep

end Reader

/-- What can be read off the key of a trigger is its kind exactly if the kind has no underscore. Two headers
that lines may have come to one key exactly if they are the same, or the kind of one goes on where the
other kind and an underscore end. In a document the lines that open triggers are such headers; there is one
trigger for each of their keys, which is of the kind of the first of them. -/
theorem triggers_share_keys (c : Catalog) (strict : Bool) (text : String) :
    (∀ {kind name}, TakesHeader c kind name →
      (triggerKindOfKey (makeScopeKey kind name) = kind ↔ '_' ∉ kind.toList)) ∧
    (∀ {kind name other otherName}, TakesHeader c kind name → TakesHeader c other otherName →
      (makeScopeKey kind name = makeScopeKey other otherName ↔
        kind = other ∧ name = otherName ∨ Extends kind name other otherName ∨
          Extends other otherName kind name)) ∧
    let headers := Reader.headers c strict .start (Text.lines text.toList)
    (∀ {key kind}, (key, kind) ∈ headers → ∃ name, TakesHeader c kind name ∧ key = makeScopeKey kind name) ∧
    ∀ key kind, key ∈ (read c strict text).store.triggersOfKind kind ↔ headers.lookup key = some kind := by
  refine ⟨fun _ => triggerKindOfKey_makeScopeKey_iff, ?_, Reader.takesHeader_of_mem_headers, ?_⟩
  · intro kind name other otherName h h'
    exact makeScopeKey_eq_iff (name_ne_of_takesHeader h) (name_ne_of_takesHeader h')
  · intro key kind
    have hrooted : Reader.Rooted c (fun _ => True) Reader.start := Reader.rooted_start
    have hkind := Reader.kind_readLines (fun _ => trivial) strict key (Text.lines text.toList) hrooted
    have hlines : Reader.Rooted c (fun _ => True) (readLines c strict .start (Text.lines text.toList)) :=
      Reader.rooted_readLines (fun _ _ _ => trivial) hrooted
    rw [Store.mem_triggersOfKind, read, (hlines.keeps_conclude strict).2, hkind]
    rfl

def noteFile : DataFile := ⟨"catalog.yaml", .data (.record [
  ("components", .record [("osc", .record [("role", .text "source"), ("attributes", .record [])])]),
  ("triggers", .record [("note", .record [("requiresName", .bool true)]), ("note_on", .record [])])])⟩

def noteCatalog : Catalog := (Catalog.load noteFile Catalog.Shipped.chordFile).toOption.getD .empty

/-- A valid catalog by which two headers have one key. -/
theorem keys_not_always_distinct :
    ¬∀ (file : DataFile) (c : Catalog), Catalog.validate file none false = [] →
      Catalog.load file Catalog.Shipped.chordFile = .ok c → ∀ kind name, TakesHeader c kind name →
        triggerKindOfKey (makeScopeKey kind name) = kind ∧
        ∀ other otherName, TakesHeader c other otherName → (kind, name) ≠ (other, otherName) →
          makeScopeKey kind name ≠ makeScopeKey other otherName := by
  intro hdistinct
  have hvalid : Catalog.validate noteFile none false = [] := by decide +kernel
  have hloads : Catalog.load noteFile Catalog.Shipped.chordFile = .ok noteCatalog :=
    eq_ok_of_isOk (by decide +kernel) .empty
  have hnamed : TakesHeader noteCatalog "note" (some "on") := by
    obtain ⟨schema, hschema, hneeds⟩ := (Option.any_eq_true ..).1
      (show (noteCatalog.trigger? "note").any (·.requiresName.isYes) = true by decide +kernel)
    exact ⟨schema, hschema, hneeds, "on".toList, by decide, by decide, by decide⟩
  have hbare : TakesHeader noteCatalog "note_on" none := by
    obtain ⟨schema, hschema, hneeds⟩ := (Option.any_eq_true ..).1
      (show (noteCatalog.trigger? "note_on").any (!·.requiresName.isYes) = true by decide +kernel)
    exact ⟨schema, hschema, by simpa using hneeds⟩
  exact (hdistinct noteFile noteCatalog hvalid hloads _ _ hnamed).2 _ _ hbare (by simp) (by decide)

end Document

end Instrument
