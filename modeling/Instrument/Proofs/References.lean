import Instrument.Document.Reader
import Instrument.Proofs.Growth

namespace Instrument.Document

variable {c : Catalog} {s t : Store} {owner : Owner} {attr : String}

/-- Whatever a value names is registered, and the attribute takes it. No word is left open. -/
inductive ValueBound (c : Catalog) (s : Store) (owner : Owner) (attr : String) : Option Value → Prop
  | nothing : ValueBound c s owner attr none
  | literal (content : Datum) : ValueBound c s owner attr (some (.literal content))
  | expression (source : Datum) : ValueBound c s owner attr (some (.expression source))
  | declared (name : String) (info : NameInfo) (schema : AttributeSchema)
      (hinfo : s.nameInfo? name = some info) (hvariable : info.isVariable = true)
      (hschema : schemaOf c owner attr = some schema)
      (haccepts : schema.canReferenceVariables = true) :
      ValueBound c s owner attr (some (.variableRef (.text name)))
  | component (name : String) (info : NameInfo) (schema : AttributeSchema)
      (hinfo : s.nameInfo? name = some info) (hschema : schemaOf c owner attr = some schema)
      (haccepts : info.kind ∈ schema.acceptsComponents) :
      ValueBound c s owner attr (some (.componentRef (.bound name info.kind)))

inductive ModulationBound (c : Catalog) (s : Store) (owner : Owner) (attr : String) :
    Option ComponentRef → Prop
  | nothing : ModulationBound c s owner attr none
  | bound (name : String) (info : NameInfo) (hinfo : s.nameInfo? name = some info)
      (haccepts : ∀ schema, schemaOf c owner attr = some schema → info.kind ∈ schema.acceptsModulation) :
      ModulationBound c s owner attr (some (.bound name info.kind))

/-- An attribute while the lines are read: a word or a modulator may wait to be bound. -/
structure Pending (c : Catalog) (s : Store) (owner : Owner) (attr : String) (a : Attribute) : Prop where
  value : ValueBound c s owner attr a.value ∨ ∃ word, a.value = some (.unresolved (.text word))
  modulation : ModulationBound c s owner attr a.modulation ∨ ∃ name, a.modulation = some (.named name)

section Mono

variable (hnames : ∀ {name info}, s.nameInfo? name = some info → t.nameInfo? name = some info)
include hnames

theorem ValueBound.mono {v : Option Value} (h : ValueBound c s owner attr v) :
    ValueBound c t owner attr v := by
  cases h with
  | nothing => exact .nothing
  | literal content => exact .literal content
  | expression source => exact .expression source
  | declared name info schema hinfo hvariable hschema haccepts =>
      exact .declared name info schema (hnames hinfo) hvariable hschema haccepts
  | component name info schema hinfo hschema haccepts =>
      exact .component name info schema (hnames hinfo) hschema haccepts

theorem ModulationBound.mono {ref : Option ComponentRef} (h : ModulationBound c s owner attr ref) :
    ModulationBound c t owner attr ref := by
  cases h with
  | nothing => exact .nothing
  | bound name info hinfo haccepts => exact .bound name info (hnames hinfo) haccepts

theorem Pending.mono {a : Attribute} (h : Pending c s owner attr a) : Pending c t owner attr a where
  value := h.value.imp_left (ValueBound.mono hnames)
  modulation := h.modulation.imp_left (ModulationBound.mono hnames)

end Mono

theorem pending_empty : Pending c s owner attr .empty where
  value := .inl .nothing
  modulation := .inl .nothing

theorem Pending.withModulator {a : Attribute} (h : Pending c s owner attr a) (name : String) :
    Pending c s owner attr (a.withModulation (some (.named name))) where
  value := h.value
  modulation := .inr ⟨name, rfl⟩

structure Binds (c : Catalog) (s : Store) (owner : Owner) (attr : String) (current a : Attribute) :
    Prop where
  value : ValueBound c s owner attr a.value
  modulation : a.modulation = current.modulation ∨ ModulationBound c s owner attr a.modulation

variable {strict : Bool} {schema : AttributeSchema} {current : Attribute}

theorem binds_withValue {v : Option Value} (h : ValueBound c s owner attr v) :
    Binds c s owner attr current (current.withValue v) :=
  ⟨h, .inl rfl⟩

theorem Binds.pending {a : Attribute} (h : Binds c s owner attr current a)
    (hcurrent : Pending c s owner attr current) : Pending c s owner attr a where
  value := .inl h.value
  modulation := by
    rcases h.modulation with hsame | hbound
    · rw [hsame]
      exact hcurrent.modulation
    · exact .inl hbound

theorem binds_bindComponent {word : String} {info : NameInfo} (hinfo : s.nameInfo? word = some info)
    (hschema : schemaOf c owner attr = some schema) (haccepts : schema.accepts info.kind = true) :
    Binds c s owner attr current (bindComponent strict attr schema current word info.kind).attr := by
  have hallowed : info.kind ∈ schema.allowList := by
    simpa [AttributeSchema.accepts] using haccepts
  rw [bindComponent]
  split
  · next href =>
      rw [AttributeSchema.allowList, if_pos href] at hallowed
      exact binds_withValue (.component word info schema hinfo hschema hallowed)
  · next href =>
      rw [AttributeSchema.allowList, if_neg href] at hallowed
      split
      · exact binds_withValue (.literal _)
      · split
        · next moved hmoved =>
            rw [moveModulator?] at hmoved
            split at hmoved
            · cases hmoved
            · have hmodulation : ModulationBound c s owner attr (some (.bound word info.kind)) := by
                refine .bound word info hinfo ?_
                intro schema' hschema'
                rw [hschema] at hschema'
                rw [← Option.some.inj hschema']
                exact hallowed
              rw [← Option.some.inj hmoved]
              refine ⟨?_, .inr hmodulation⟩
              simp only
              split
              · exact .nothing
              · exact .literal _
        · exact binds_withValue (.literal _)

theorem binds_bindWord (hschema : schemaOf c owner attr = some schema) (word : String) :
    Binds c s owner attr current
      (bindWord strict owner attr schema current word (s.nameInfo? word)).attr := by
  simp only [bindWord]
  split
  · exact binds_withValue (.literal _)
  · next info hinfo =>
      split
      · next hvariable =>
          split
          · next hcan => exact binds_withValue (.declared word info schema hinfo hvariable hschema hcan)
          · exact binds_withValue (.literal _)
      · split
        · exact binds_withValue (.literal _)
        · split
          · exact binds_withValue (.literal _)
          · next haccepts => exact binds_bindComponent hinfo hschema (by simpa using haccepts)

theorem bound_plainValue (text : List Char) : ValueBound c s owner attr (some (plainValue text)) := by
  rw [plainValue]
  split
  · exact .expression _
  · exact .literal _

theorem bound_defaultValue (schema : AttributeSchema) :
    ValueBound c s owner attr (defaultValue schema) := by
  rw [defaultValue]
  split
  · exact .nothing
  · exact .literal _

theorem binds_assignTyped (text : List Char) :
    Binds c s owner attr current (assignTyped attr schema current text).attr := by
  rw [assignTyped]
  split
  · rw [choose]
    split
    · exact binds_withValue (.literal _)
    · exact binds_withValue (bound_defaultValue schema)
  · split
    · rw [measure]
      split
      · split
        · exact binds_withValue (.literal _)
        · exact binds_withValue (bound_defaultValue schema)
      · exact binds_withValue (.literal _)
    · exact binds_withValue (bound_plainValue text)

theorem pending_assignName (hschema : schemaOf c owner attr = some schema)
    (hcurrent : Pending c s owner attr current) (text : List Char) :
    Pending c s owner attr
      (assignName strict owner attr schema current text (s.nameInfo? (String.ofList text))).attr := by
  have htyped : Pending c s owner attr (assignTyped attr schema current text).attr :=
    (binds_assignTyped text).pending hcurrent
  simp only [assignName]
  split
  · split
    · exact (binds_bindWord hschema (String.ofList text)).pending hcurrent
    · split
      · exact htyped
      · exact ⟨.inr ⟨String.ofList text, rfl⟩, hcurrent.modulation⟩
  · split
    · split
      · exact (binds_withValue (bound_defaultValue schema)).pending hcurrent
      · exact htyped
    · exact htyped

theorem pending_assign (hcurrent : Pending c s owner attr current) (text : List Char) :
    Pending c s owner attr (assign strict owner attr (schemaOf c owner attr) current text
      (s.nameInfo? (String.ofList text))).attr := by
  simp only [assign]
  split
  · exact (binds_withValue (bound_plainValue text)).pending hcurrent
  · next schema hschema =>
      split
      · exact pending_assignName hschema hcurrent text
      · exact (binds_assignTyped text).pending hcurrent

end Instrument.Document
