import Instrument.Proofs.Assignments
import Instrument.Proofs.Integrity
import Instrument.Proofs.SecondPass

namespace Instrument.Document

variable {c : Catalog} {strict : Bool} {schema : AttributeSchema} {word : String} {owner : Owner}
  {attr : String} {s t : Store} {a : Attribute}

/-- A modulator once all names are registered. The name of a component of a kind that modulates, and
that the attribute accepts, gets that kind; any other stays as it is. -/
def settledModulator (c : Catalog) (schema : AttributeSchema) (s : Store) (ref : ComponentRef) :
    ComponentRef :=
  match ref with
  | ⟨.text name, .null⟩ =>
    match s.nameInfo? name with
    | none => ref
    | some info =>
      if info.isVariable = false ∧ info.kind ∈ c.modulatorKinds ∧
          info.kind ∈ schema.acceptsModulation then .bound name info.kind
      else ref
  | _ => ref

theorem settledModulator_of_ne {ref : ComponentRef} (h : ∀ name, ref ≠ .named name) :
    settledModulator c schema s ref = ref := by
  rw [settledModulator]
  exact h

theorem settledModulator_bound (name kind : String) :
    settledModulator c schema s (.bound name kind) = .bound name kind :=
  settledModulator_of_ne (by simp [ComponentRef.bound, ComponentRef.named])

theorem settledModulator_named_cases (c : Catalog) (schema : AttributeSchema) (s : Store)
    (name : String) :
    settledModulator c schema s (.named name) = .named name ∨
      ∃ kind, settledModulator c schema s (.named name) = .bound name kind := by
  simp only [settledModulator, ComponentRef.named]
  split
  · exact .inl rfl
  · split
    · exact .inr ⟨_, rfl⟩
    · exact .inl rfl

theorem settledModulator_settled (c : Catalog) (schema : AttributeSchema) (s : Store)
    (ref : ComponentRef) :
    settledModulator c schema s (settledModulator c schema s ref) = settledModulator c schema s ref := by
  by_cases hnamed : ∃ name, ref = .named name
  · obtain ⟨name, rfl⟩ := hnamed
    rcases settledModulator_named_cases c schema s name with hsame | ⟨kind, hbound⟩
    · rw [hsame, hsame]
    · rw [hbound, settledModulator_bound]
  · have hsame : settledModulator c schema s ref = ref :=
      settledModulator_of_ne fun name hname => hnamed ⟨name, hname⟩
    rw [hsame, hsame]

theorem settledModulator_named (c : Catalog) (attr : String) (schema : AttributeSchema) (s : Store)
    (name : String) :
    settledModulator c schema s (.named name) =
      match bindModulator c.modulatorKinds attr (some schema) name (s.nameInfo? name) with
      | .ok kind => .bound name kind
      | .error _ => .named name := by
  simp only [settledModulator, ComponentRef.named]
  cases s.nameInfo? name with
  | none => rfl
  | some info =>
      cases hvariable : info.isVariable with
      | true => simp [bindModulator, Option.filter, hvariable]
      | false =>
          simp only [bindModulator, Option.filter, hvariable, Bool.not_false, if_true, true_and,
            List.contains_eq_mem, Bool.not_eq_true', decide_eq_false_iff_not]
          by_cases hmodulates : info.kind ∈ c.modulatorKinds
          · by_cases haccepts : info.kind ∈ schema.acceptsModulation
            · have hreceives : schema.receivesModulation = true := by
                rw [AttributeSchema.receivesModulation, Bool.not_eq_true', List.isEmpty_eq_false_iff]
                exact List.ne_nil_of_mem haccepts
              simp [hmodulates, haccepts, hreceives]
            · cases hreceives : schema.receivesModulation <;> simp [hmodulates, haccepts]
          · simp [hmodulates]

theorem boundAtOnce_map {f : ComponentRef → ComponentRef}
    (hf : ∀ name kind, f (.bound name kind) = .bound name kind) (info : Option NameInfo)
    (modulation : Option ComponentRef) :
    (boundAtOnce strict schema word info modulation).withModulation
        ((boundAtOnce strict schema word info modulation).modulation.map f) =
      boundAtOnce strict schema word info (modulation.map f) := by
  cases info with
  | none => rfl
  | some info =>
      simp only [boundAtOnce, Option.map_eq_none_iff]
      repeat' split
      all_goals simp [Attribute.withModulation, hf]

theorem value_boundAtOnce_ne_unresolved (info : Option NameInfo) (modulation : Option ComponentRef)
    (d : Datum) : (boundAtOnce strict schema word info modulation).value ≠ some (.unresolved d) := by
  cases info with
  | none => simp [boundAtOnce]
  | some info =>
      simp only [boundAtOnce, standIn]
      repeat' split
      all_goals simp

namespace Reader

theorem boundAttribute_congr (h : ∀ name, t.nameInfo? name = s.nameInfo? name)
    (target : Owner × String) (a : Attribute) :
    boundAttribute c strict target t a = boundAttribute c strict target s a := by
  simp only [boundAttribute, boundModulation, bindValue, h]

theorem boundModulation_eq (hschema : schemaOf c owner attr = some schema) (s : Store) (a : Attribute) :
    boundModulation c (owner, attr) s a =
      a.withModulation (a.modulation.map (settledModulator c schema s)) := by
  obtain ⟨value, modulation⟩ := a
  cases modulation with
  | none => rfl
  | some ref =>
      by_cases hnamed : ∃ name, ref = .named name
      · obtain ⟨name, rfl⟩ := hnamed
        rw [Option.map_some, settledModulator_named c attr]
        simp only [boundModulation, ComponentRef.named, hschema]
        cases bindModulator c.modulatorKinds attr (some schema) name (s.nameInfo? name) <;> rfl
      · have hsame : settledModulator c schema s ref = ref :=
          settledModulator_of_ne fun name hname => hnamed ⟨name, hname⟩
        rw [Option.map_some, hsame, boundModulation]
        split
        · next name hname =>
            exact absurd ⟨name, Option.some.inj hname⟩ hnamed
        · rfl

/-- A word is bound to what it would be bound to at once, whether it waited or not. -/
theorem boundAttribute_of_given (hschema : schemaOf c owner attr = some schema)
    (h : a.value = some (.unresolved (.text word)) ∨
      ∃ info, s.nameInfo? word = some info ∧ (info.isVariable || schema.isReference) = true ∧
        a.value = (boundAtOnce strict schema word (some info) none).value) :
    boundAttribute c strict (owner, attr) s a =
      boundAtOnce strict schema word (s.nameInfo? word)
        (a.modulation.map (settledModulator c schema s)) := by
  rw [boundAttribute, boundModulation_eq hschema]
  rcases h with hword | ⟨info, hinfo, hsettled, hvalue⟩
  · have hbound : (bindValue c strict (owner, attr) a s).attr =
        boundAtOnce strict schema word (s.nameInfo? word) a.modulation := by
      rw [← bindWord_attr strict owner attr schema a]
      simp only [bindValue, hword, hschema]
    rw [hbound]
    exact boundAtOnce_map settledModulator_bound _ _
  · have hbound : (bindValue c strict (owner, attr) a s).attr = a := by
      rw [bindValue]
      split
      · next other hother =>
          rw [hvalue] at hother
          exact absurd hother (value_boundAtOnce_ne_unresolved _ _ _)
      · rfl
    rw [hbound, hinfo, boundAtOnce_of_settled hsettled, ← hvalue]
    rfl

theorem boundAttribute_boundAtOnce (hschema : schemaOf c owner attr = some schema)
    (info : Option NameInfo) (modulation : Option ComponentRef) :
    boundAttribute c strict (owner, attr) s
        (boundAtOnce strict schema word info (modulation.map (settledModulator c schema s))) =
      boundAtOnce strict schema word info (modulation.map (settledModulator c schema s)) := by
  have hsettled : (modulation.map (settledModulator c schema s)).map (settledModulator c schema s) =
      modulation.map (settledModulator c schema s) := by
    rw [Option.map_map]
    congr 1
    funext ref
    exact settledModulator_settled c schema s ref
  generalize modulation.map (settledModulator c schema s) = settled at hsettled
  have hbound : (bindValue c strict (owner, attr) (boundAtOnce strict schema word info settled) s).attr =
      boundAtOnce strict schema word info settled := by
    rw [bindValue]
    split
    · next other hother => exact absurd hother (value_boundAtOnce_ne_unresolved _ _ _)
    · rfl
  rw [boundAttribute, boundModulation_eq hschema, hbound, boundAtOnce_map settledModulator_bound,
    hsettled]

/-- An attribute on its way to what it will be when all are bound: it is that already, unless it is
still to do. -/
def Approaches (c : Catalog) (strict : Bool) (s : Store) (target : Owner × String)
    (todo : List (Owner × String)) (final : Attribute) (r : Reader) : Prop :=
  (∀ name, r.store.nameInfo? name = s.nameInfo? name) ∧
    ∃ a, r.store.HasCell target.1 target.2 (.ok a) ∧ boundAttribute c strict target s a = final ∧
      (target ∉ todo → a = final)

variable {r : Reader} {target next : Owner × String} {todo : List (Owner × String)} {final : Attribute}

theorem Approaches.step (hfinal : boundAttribute c strict target s final = final)
    (hresolving : Resolving c (next :: todo) r)
    (h : Approaches c strict s target (next :: todo) final r) :
    Approaches c strict s target todo final (r.bindAttribute c strict next) := by
  obtain ⟨hnames, a, hcell, ha, hdone⟩ := h
  have hcoherent := hresolving.kept.coherent
  have hknown : r.store.Knows next.1 := hresolving.known next (List.mem_cons_self ..)
  have hstore := store_bindAttribute c strict r next
  rw [hresolving.kept.readable.write_eq hcoherent hknown] at hstore
  refine ⟨?_, ?_⟩
  · intro name
    rw [hstore, (r.store.keeps_setCell ..).nameInfo?_eq, hnames]
  · rw [hstore]
    by_cases hsame : target = next
    · subst hsame
      refine ⟨_, Store.hasCell_setCell hcoherent hknown _ _, ?_, ?_⟩
      · rw [hcell.read_eq hcoherent, boundAttribute_congr hnames, ha, hfinal]
      · intro _
        rw [hcell.read_eq hcoherent, boundAttribute_congr hnames, ha]
    · refine ⟨a, hcell.setCell_of_ne hcoherent hknown ?_, ha, ?_⟩
      · rintro ⟨howner, hattr⟩
        exact hsame (Prod.ext howner hattr)
      · intro hmem
        exact hdone (by simp [hsame, hmem])

theorem Approaches.run (hfinal : boundAttribute c strict target s final = final) :
    ∀ {todo r}, Resolving c todo r → Approaches c strict s target todo final r →
      Approaches c strict s target [] final (todo.foldl (bindAttribute c strict) r) := by
  intro todo
  induction todo with
  | nil =>
      intro r _ h
      exact h
  | cons next rest ih =>
      intro r hresolving h
      exact ih hresolving.step (h.step hfinal hresolving)

theorem hasCell_conclude (hkept : Kept c r.store) (hcell : r.store.HasCell owner attr (.ok a))
    (hfinal : boundAttribute c strict (owner, attr) r.store a = final)
    (hstays : boundAttribute c strict (owner, attr) r.store final = final) {cell : Cell} :
    (r.conclude c strict).store.HasCell owner attr cell ↔ cell = .ok final := by
  have hresolving := resolving_targets hkept
  have hstart : Approaches c strict r.store (owner, attr) (targets r.store) final r := by
    refine ⟨fun _ => rfl, a, hcell, hfinal, ?_⟩
    intro hmem
    exact absurd ((mem_targets hkept).2 ⟨_, hcell⟩) hmem
  obtain ⟨-, b, hb, -, hdone⟩ := hstart.run hstays hresolving
  obtain rfl := hdone List.not_mem_nil
  have hcoherent : (r.bindAll c strict).store.Coherent := (hresolving.run).kept.coherent
  constructor
  · intro h
    exact h.unique hcoherent hb
  · rintro rfl
    exact hb

theorem hasCell_conclude_of_given (hkept : Kept c r.store)
    (hschema : schemaOf c owner attr = some schema)
    (h : Given strict schema owner attr word r.store) :
    ∃ a, r.store.HasCell owner attr (.ok a) ∧
      ∀ cell, (r.conclude c strict).store.HasCell owner attr cell ↔
        cell = .ok (boundAtOnce strict schema word (r.store.nameInfo? word)
          (a.modulation.map (settledModulator c schema r.store))) := by
  obtain ⟨a, hcell, hvalue⟩ := h
  refine ⟨a, hcell, fun cell => ?_⟩
  exact hasCell_conclude hkept hcell (boundAttribute_of_given hschema hvalue)
    (boundAttribute_boundAtOnce hschema _ _)

end Reader

/-- An attribute that is no choice and takes names, and that the last line for it gives a bare word,
is in the end what the word comes to by what is registered under it when all lines have been read,
and by the modulation that the attribute has then. Where the name is declared makes no difference.

A word for a variable or a component that the attribute takes refers to it; a word for a modulator of
an attribute without a modulation attaches it to the value that stands in; any other stays a text. -/
theorem word_bound_at_once (hkeys : DistinctKeys c) (strict : Bool) (text : String)
    {given : List Char} (hschema : schemaOf c owner attr = some schema)
    (htype : schema.type ≠ .choice)
    (hopen : (schema.resolvesComponents || schema.canReferenceVariables) = true)
    (hname : Text.isName given = true)
    (hlast : (Reader.assignments c strict .start (Text.lines text.toList)).lookup (owner, attr) =
      some given) :
    ∃ a, (readLines c strict .start (Text.lines text.toList)).store.HasCell owner attr (.ok a) ∧
      ∀ cell, (read c strict text).store.HasCell owner attr cell ↔
        cell = .ok (boundAtOnce strict schema (String.ofList given)
          ((readLines c strict .start (Text.lines text.toList)).store.nameInfo? (String.ofList given))
          (a.modulation.map (settledModulator c schema
            (readLines c strict .start (Text.lines text.toList)).store))) := by
  have hlinked := Reader.linked_readLines hkeys strict (Text.lines text.toList)
  have hgiven := (Reader.given_readLines strict hkeys hschema htype hopen (Text.lines text.toList) _
    Reader.linked_start).1 given hlast hname
  exact Reader.hasCell_conclude_of_given hlinked.kept hschema hgiven

theorem word_bound_at_once_patchText :
    (Reader.assignments patchCatalog false .start (Text.lines patchText.toList)).lookup
        (.component "lead" "mixer", "source") = some "wobble".toList ∧
      ∃ modulation, ∀ cell,
        (read patchCatalog false patchText).store.HasCell (.component "lead" "mixer") "source" cell ↔
          cell = .ok ⟨some (.componentRef (.bound "wobble" "lfo")), modulation⟩ := by
  have hlast : (Reader.assignments patchCatalog false .start (Text.lines patchText.toList)).lookup
      (.component "lead" "mixer", "source") = some "wobble".toList := by
    decide +kernel
  have hschema : schemaOf patchCatalog (.component "lead" "mixer") "source" = some _ := rfl
  obtain ⟨a, -, hcell⟩ := word_bound_at_once distinctKeys_patchCatalog false patchText hschema
    (by decide) (by decide) (by decide +kernel) hlast
  have hinfo : (readLines patchCatalog false .start (Text.lines patchText.toList)).store.nameInfo?
      (String.ofList "wobble".toList) = some ⟨.global, "lfo", none⟩ := by
    decide +kernel
  rw [hinfo] at hcell
  exact ⟨hlast, _, hcell⟩

def pitchWith (default : Datum) : AttributeSchema :=
  ⟨"pitch", .number, default, .null, .null, .null, .null, .null, [], .null, .null, [], [], ["lfo"]⟩

def pitchCatalog (default : Datum) : Catalog :=
  ⟨.ofList [("lfo", ⟨"lfo", .modulator, .empty, .null⟩),
      ("osc", ⟨"osc", .source, .ofList [("pitch", pitchWith default)], .null⟩)], .empty, .empty⟩

def pitchText : String := "lfo wobble\nosc lead\n  pitch wobble"

theorem distinctKeys_pitchCatalog (default : Datum) : DistinctKeys (pitchCatalog default) := by
  intro kind₁ name₁ kind₂ name₂ h
  obtain ⟨schema, hschema, -⟩ := h
  cases hschema

theorem standIn_of_kept {d : Datum}
    (hlast : (Reader.assignments (pitchCatalog d) false .start (Text.lines pitchText.toList)).lookup
      (.component "lead" "osc", "pitch") = some "wobble".toList)
    (hinfo : (readLines (pitchCatalog d) false .start (Text.lines pitchText.toList)).store.nameInfo?
      (String.ofList "wobble".toList) = some ⟨.global, "lfo", none⟩)
    (hfree : ((readLines (pitchCatalog d) false .start (Text.lines pitchText.toList)).store.read
      (.component "lead" "osc") "pitch").modulation.isNone = true)
    (hkept : (read (pitchCatalog d) false pitchText).store.HasCell (.component "lead" "osc") "pitch"
      (.ok ⟨some (.literal d), some (.bound "wobble" "lfo")⟩)) :
    standIn (pitchWith d) = some (.literal d) := by
  have hlinked := Reader.linked_readLines (distinctKeys_pitchCatalog d) false
    (Text.lines pitchText.toList)
  have hschema : schemaOf (pitchCatalog d) (.component "lead" "osc") "pitch" = some (pitchWith d) := rfl
  have hgiven := (Reader.given_readLines false (distinctKeys_pitchCatalog d) hschema
    (by simp [pitchWith]) rfl (Text.lines pitchText.toList) _ Reader.linked_start).1 _ hlast
    (by decide +kernel)
  obtain ⟨a, ha, hcell⟩ := Reader.hasCell_conclude_of_given hlinked.kept hschema hgiven
  have hmodulation : a.modulation = none := by
    rw [← ha.read_eq hlinked.kept.coherent]
    exact Option.isNone_iff_eq_none.1 hfree
  have hstored := (hcell _).1 hkept
  rw [hinfo, hmodulation] at hstored
  have hattr := Except.ok.inj hstored
  exact (congrArg Attribute.value hattr).symm

/-- A default is stored as what its text denotes, so that the number five and the text of it come to
the same. -/
theorem default_not_always_kept :
    ¬∀ d ∈ [Datum.number (.int 5), .text "5"],
      (read (pitchCatalog d) false pitchText).store.HasCell (.component "lead" "osc") "pitch"
        (.ok ⟨some (.literal d), some (.bound "wobble" "lfo")⟩) := by
  intro hkept
  have hnumber := standIn_of_kept (by decide +kernel) (by decide +kernel) (by decide +kernel)
    (hkept (.number (.int 5)) (by simp))
  have htext := standIn_of_kept (by decide +kernel) (by decide +kernel) (by decide +kernel)
    (hkept (.text "5") (by simp))
  have hsame : standIn (pitchWith (.number (.int 5))) = standIn (pitchWith (.text "5")) := rfl
  rw [hnumber, htext] at hsame
  cases hsame

end Instrument.Document
