import Instrument.Datum.Basic
import Instrument.Number.Printer
import Instrument.Text.Quoted

namespace Instrument

mutual

def Value.quoted : Value → String
  | .literal content => "Literal(value=" ++ content.quoted ++ ")"
  | .variableRef name => "VariableRef(name=" ++ name.quoted ++ ")"
  | .componentRef ref => ref.quoted
  | .expression source => "Expression(source=" ++ source.quoted ++ ")"
  | .unresolved word => "Unresolved(text=" ++ word.quoted ++ ")"

def ComponentRef.quoted : ComponentRef → String
  | ⟨name, kind⟩ => "ComponentRef(name=" ++ name.quoted ++ ", kind=" ++ kind.quoted ++ ")"

def Datum.quoted : Datum → String
  | .null => "None"
  | .bool true => "True"
  | .bool false => "False"
  | .number n => n.text
  | .text s => Text.quoted s
  | .list items => "[" ++ ", ".intercalate (quotedItems items) ++ "]"
  | .record fields => "\x7b" ++ ", ".intercalate (quotedFields fields) ++ "\x7d"
  | .value v => v.quoted
  | .assigned value modulation =>
    "AttributeValue(value=" ++ value.quoted ++ ", modulation=" ++ modulation.quoted ++ ")"

def quotedItems : List Datum → List String
  | [] => []
  | d :: rest => d.quoted :: quotedItems rest

def quotedFields : List (String × Datum) → List String
  | [] => []
  | (key, d) :: rest => (Text.quoted key ++ ": " ++ d.quoted) :: quotedFields rest

end

def Datum.shown : Datum → String
  | .text s => s
  | d => d.quoted

mutual

def Value.isWritable : Value → Bool
  | .literal content => content.isWritable
  | .variableRef name => name.isWritable
  | .componentRef ref => ref.isWritable
  | .expression source => source.isWritable
  | .unresolved word => word.isWritable

def ComponentRef.isWritable : ComponentRef → Bool
  | ⟨name, kind⟩ => name.isWritable && kind.isWritable

def Datum.isWritable : Datum → Bool
  | .number n => n.isWritable
  | .list items => areWritable items
  | .record fields => fieldsWritable fields
  | .value v => v.isWritable
  | .assigned value modulation => value.isWritable && modulation.isWritable
  | _ => true

def areWritable : List Datum → Bool
  | [] => true
  | d :: rest => d.isWritable && areWritable rest

def fieldsWritable : List (String × Datum) → Bool
  | [] => true
  | (_, d) :: rest => d.isWritable && fieldsWritable rest

end

def Value.typeName : Value → String
  | .literal _ => "Literal"
  | .variableRef _ => "VariableRef"
  | .componentRef _ => "ComponentRef"
  | .expression _ => "Expression"
  | .unresolved _ => "Unresolved"

def Datum.typeName : Datum → String
  | .null => "NoneType"
  | .bool _ => "bool"
  | .number (.int _) => "int"
  | .number (.float _) => "float"
  | .text _ => "str"
  | .list _ => "list"
  | .record _ => "dict"
  | .value v => v.typeName
  | .assigned _ _ => "AttributeValue"

end Instrument
