/-
  RecordQuery.Json.Decoder

  Decoding documents. A decoder goes through a document in the order of its text and reports the
  first problem it meets. Records are written as objects, or as arrays that hold their fields in
  the order of declaration. A tagged record is read as a whole before its fields are decoded.

  The nesting of arrays and objects is bounded, except where a value is skipped.
-/

import RecordQuery.Json.Document
import RecordQuery.Text.Numeral

namespace RecordQuery.Json

/-- Why a text does not hold what it should. -/
inductive DecodeError where
  | malformed (stop : Stop)
  | missingField (name : String)
  | duplicateField (name : String)
  | unknownField (name : String) (expected : List String)
  | unknownVariant (name : String) (expected : List String)
  | invalidType
  | invalidValue
  | invalidLength
deriving DecidableEq, Repr

namespace DecodeError

/-- A name as messages show it. -/
def quoted (name : String) : String :=
  "`" ++ name ++ "`"

/-- The names that could have stood there. -/
def alternatives : List String → String
  | [a, b] => quoted a ++ " or " ++ quoted b
  | names => "one of " ++ String.intercalate ", " (names.map quoted)

/-- The wording of the error. -/
def message : DecodeError → String
  | .malformed .cutShort => "unexpected end of JSON text"
  | .malformed .misplaced => "malformed JSON text"
  | .missingField name => "missing field " ++ quoted name
  | .duplicateField name => "duplicate field " ++ quoted name
  | .unknownField name expected =>
    "unknown field " ++ quoted name ++ ", expected " ++ alternatives expected
  | .unknownVariant name expected =>
    "unknown variant " ++ quoted name ++ ", expected " ++ alternatives expected
  | .invalidType => "invalid type"
  | .invalidValue => "invalid value"
  | .invalidLength => "invalid length"

end DecodeError

/-- A decoded value, or the first problem of the text. -/
abbrev Decoded (α : Type) := Except DecodeError α

/-- The failure of text that cannot be read on. -/
def malformed {α : Type} (stop : Stop) : Decoded α :=
  .error (.malformed stop)

/-- A part of a document, whose faults are those of malformed text. -/
def sound {α : Type} (part : Except Stop α) : Decoded α :=
  part.mapError .malformed

/-! ## Faults of documents -/

namespace Broken

/-- The fault of a value that is used. -/
def stop : Broken → Stop
  | .absent => .cutShort
  | .unreadable => .misplaced
  | .misspeltNull stop => stop
  | .misspeltBool stop => stop
  | .number stop => stop
  | .string stop _ => stop
  | .noColon stop => stop

/-- The fault of a value that is skipped. -/
def skipped : Broken → Stop
  | .number _ => .misplaced
  | .string _ skipped => skipped
  | b => b.stop

/-- The fault of a value that should be the name of a variant. -/
def variantStop : Broken → Stop
  | .absent => .cutShort
  | .string stop _ => stop
  | .noColon stop => stop
  | _ => .misplaced

end Broken

namespace Doc

/-- The error of a value that has the wrong type. -/
def mismatch : Doc → DecodeError
  | .number (.error stop) => .malformed stop
  | .string (.error stop) => .malformed stop
  | .broken b => .malformed b.stop
  | _ => .invalidType

/-- The fault of a key that is no readable string. -/
def keyStop : Doc → Stop
  | .broken (.string stop _) => stop
  | _ => .misplaced

/-- The same where the object is skipped. -/
def skippedKeyStop : Doc → Stop
  | .broken (.string _ skipped) => skipped
  | _ => .misplaced

end Doc

/-! ## Skipping -/

mutual

/-- Goes past a value. Only text that makes no sense is a problem. -/
def Doc.skip : Doc → Except Stop Unit
  | .array items => items.skip
  | .object members => members.skip
  | .broken b => .error b.skipped
  | _ => .ok ()

/-- Goes past the rest of an array. -/
def Items.skip : Items → Except Stop Unit
  | .close => .ok ()
  | .cut => .error .cutShort
  | .stray => .error .misplaced
  | .danglingComma => .error .cutShort
  | .item value rest => do
    value.skip
    rest.skip

/-- Goes past the rest of an object. -/
def Members.skip : Members → Except Stop Unit
  | .close => .ok ()
  | .cut => .error .cutShort
  | .stray => .error .misplaced
  | .danglingComma => .error .cutShort
  | .keyless found => .error found.skippedKeyStop
  | .member _ value rest => do
    value.skip
    rest.skip

end

/-! ## Whole values -/

/-- The number of arrays and objects that may be open at one place. -/
def maxDepth : Nat := 127

/-- Fails if one more array or object, inside of `depth` others, would be one too many. -/
def enter (depth : Nat) : Except Stop Unit :=
  if maxDepth ≤ depth then .error .misplaced else .ok ()

mutual

/-- The value of a document inside of `depth` arrays and objects. -/
def Doc.toJson (depth : Nat) : Doc → Except Stop Json
  | .null => .ok .null
  | .bool b => .ok (.bool b)
  | .number n => n.map .number
  | .string s => s.map .string
  | .array items => do
    enter depth
    return .array (← items.toJsons (depth + 1))
  | .object members => do
    enter depth
    return .object (← members.toJsons (depth + 1))
  | .broken b => .error b.stop

/-- The values in the rest of an array. -/
def Items.toJsons (depth : Nat) : Items → Except Stop (List Json)
  | .close => .ok []
  | .cut => .error .cutShort
  | .stray => .error .misplaced
  | .danglingComma => .error .cutShort
  | .item value rest => do
    let j ← value.toJson depth
    return j :: (← rest.toJsons depth)

/-- The keys and values in the rest of an object. -/
def Members.toJsons (depth : Nat) : Members → Except Stop (List (String × Json))
  | .close => .ok []
  | .cut => .error .cutShort
  | .stray => .error .misplaced
  | .danglingComma => .error .cutShort
  | .keyless found => .error found.keyStop
  | .member key value rest => do
    let k ← key
    let j ← value.toJson depth
    return (k, j) :: (← rest.toJsons depth)

end

/-! ## Scalars -/

/-- The alternative that has a name. -/
def variant {α : Type} (all : List α) (name : α → String) (s : String) : Decoded α :=
  match all.find? fun a => name a == s with
  | some a => .ok a
  | none => .error (.unknownVariant s (all.map name))

/-- An integer that has an unsigned type of 64 bits. -/
def unsigned (n : Int) : Decoded UInt64 :=
  if 0 ≤ n ∧ n ≤ RecordQuery.Text.maxUnsigned then .ok (UInt64.ofNat n.toNat) else .error .invalidValue

/-- An integer that has a signed type of 64 bits. -/
def signed (n : Int) : Decoded Int64 :=
  if -RecordQuery.Text.maxSigned - 1 ≤ n ∧ n ≤ RecordQuery.Text.maxSigned then .ok (Int64.ofInt n) else .error .invalidValue

namespace Doc

/-- Nothing, which `null` stands for. -/
def asNull : Doc → Decoded Unit
  | .null => .ok ()
  | d => .error d.mismatch

/-- The truth value of a document. -/
def asBool : Doc → Decoded Bool
  | .bool b => .ok b
  | d => .error d.mismatch

/-- The content of a string. -/
def asString : Doc → Decoded String
  | .string (.ok s) => .ok s
  | d => .error d.mismatch

/-- An unsigned integer of 64 bits. -/
def asUnsigned : Doc → Decoded UInt64
  | .number (.ok (.integer n)) => unsigned n
  | d => .error d.mismatch

/-- Nothing for `null`, and the decoded value otherwise. -/
def asOption {α : Type} (decode : Doc → Decoded α) : Doc → Decoded (Option α)
  | .null => .ok none
  | .broken (.misspeltNull stop) => malformed stop
  | d => some <$> decode d

/-- The alternative whose name a string is. -/
def asTag {α : Type} (all : List α) (name : α → String) (d : Doc) : Decoded α := do
  variant all name (← d.asString)

/-- The alternative that the only member of an object names, its value being `null`. Where a key
    should stand, nothing but a string makes sense, whatever value starts there. -/
def asVariantMember {α : Type} (all : List α) (name : α → String) : Members → Decoded α
  | .member key value rest => do
    let a ← variant all name (← sound key)
    value.asNull
    match rest with
    | .close => return a
    | .cut => malformed .cutShort
    | _ => malformed .misplaced
  | .keyless found => malformed found.keyStop
  | .cut => malformed .cutShort
  | _ => malformed .misplaced

/-- One of several alternatives, by its name or as an object with one member of that name. No other
    value can start an alternative. -/
def asVariant {α : Type} (all : List α) (name : α → String) (depth : Nat) : Doc → Decoded α
  | .string s => do variant all name (← sound s)
  | .object members => do
    sound (enter depth)
    asVariantMember all name members
  | .broken b => malformed b.variantStop
  | _ => malformed .misplaced

end Doc

/-- The content of a string. -/
def asString : Json → Decoded String
  | .string s => .ok s
  | _ => .error .invalidType

/-- A signed integer of 64 bits. -/
def asSigned : Json → Decoded Int64
  | .number (.integer n) => signed n
  | _ => .error .invalidType

/-- The contents of an array of strings. -/
def asStrings : Json → Decoded (List String)
  | .array items => items.mapM asString
  | _ => .error .invalidType

/-- Whether a value can stand for no value at all. -/
def isUnit : Json → Bool
  | .null => true
  | .object [] => true
  | _ => false

/-- One of several alternatives, by its name or as an object with one member of that name. -/
def asVariant {α : Type} (all : List α) (name : α → String) : Json → Decoded α
  | .string s => variant all name s
  | .object [(key, value)] => do
    let a ← variant all name key
    if value.isUnit then return a else throw .invalidType
  | .object _ => .error .invalidValue
  | _ => .error .invalidType

/-- One of several alternatives, by its name or its number. -/
def asTag {α : Type} (all : List α) (name : α → String) : Json → Decoded α
  | .string s => variant all name s
  | .number (.integer n) =>
    if n < 0 then .error .invalidType
    else match all[n.toNat]? with
      | some a => .ok a
      | none => .error .invalidValue
  | _ => .error .invalidType

/-! ## Records -/

/-- Fails if a field has a value already. -/
def unset {α : Type} (slot : Option α) (name : String) : Decoded Unit :=
  if slot.isSome then .error (.duplicateField name) else .ok ()

/-- The value of a field, which has to be there. -/
def required {α : Type} (slot : Option α) (name : String) : Decoded α :=
  match slot with
  | some a => .ok a
  | none => .error (.missingField name)

/-- Adds the members of an object to a record, one after the other. -/
def Members.addTo {σ : Type} (add : σ → String → Doc → Decoded σ) (record : σ) :
    Members → Decoded σ
  | .close => .ok record
  | .cut => malformed .cutShort
  | .stray => malformed .misplaced
  | .danglingComma => malformed .cutShort
  | .keyless found => malformed found.keyStop
  | .member key value rest => do
    let record ← add record (← sound key) value
    rest.addTo add record

/-- Fails unless an array ends here. -/
def Items.finish : Items → Decoded Unit
  | .close => .ok ()
  | .cut => malformed .cutShort
  | _ => malformed .misplaced

/-- Adds the items of an array to a record, as the fields with the given names. A field that is not
    optional has to have an item. -/
def Items.addTo {σ : Type} (add : σ → String → Doc → Decoded σ) (optional : String → Bool)
    (record : σ) : List String → Items → Decoded σ
  | [], items => do
    items.finish
    return record
  | name :: names, .close =>
    if optional name then Items.addTo add optional record names .close
    else .error .invalidLength
  | _ :: _, .cut => malformed .cutShort
  | _ :: _, .stray => malformed .misplaced
  | _ :: _, .danglingComma => malformed .cutShort
  | name :: names, .item value rest => do
    let record ← add record name value
    Items.addTo add optional record names rest

/-- A record inside of `depth` arrays and objects: an object, or an array with the fields in
    order. -/
def Doc.addTo {σ : Type} (add : σ → String → Doc → Decoded σ) (optional : String → Bool)
    (names : List String) (depth : Nat) (record : σ) : Doc → Decoded σ
  | .object members => do
    sound (enter depth)
    members.addTo add record
  | .array items => do
    sound (enter depth)
    items.addTo add optional record names
  | d => .error d.mismatch

/-- The decoded items of an array. -/
def Items.decodeAll {α : Type} (decode : Doc → Decoded α) : Items → Decoded (List α)
  | .close => .ok []
  | .cut => malformed .cutShort
  | .stray => malformed .misplaced
  | .danglingComma => malformed .cutShort
  | .item value rest => do
    let a ← decode value
    return a :: (← rest.decodeAll decode)

/-- A list inside of `depth` arrays and objects. -/
def Doc.asList {α : Type} (decode : Doc → Decoded α) (depth : Nat) : Doc → Decoded (List α)
  | .array items => do
    sound (enter depth)
    items.decodeAll decode
  | d => .error d.mismatch

/-! ## Tagged records -/

/-- The fields of a tagged record, by name or in order. -/
inductive Fields where
  | named (members : List (String × Json))
  | positional (items : List Json)

/-- The member that tells which kind of record an object is. -/
def tagName : String := "kind"

/-- The tag of an object and its other members. The tag is decoded where it stands. -/
def Members.tagged {α : Type} (all : List α) (name : α → String) (depth : Nat) (tag : Option α) :
    Members → Decoded (α × List (String × Json))
  | .close => do return (← required tag tagName, [])
  | .cut => malformed .cutShort
  | .stray => malformed .misplaced
  | .danglingComma => malformed .cutShort
  | .keyless found => malformed found.keyStop
  | .member key value rest => do
    let k ← sound key
    if k = tagName then
      unset tag tagName
      rest.tagged all name depth (some (← value.asTag all name))
    else
      let j ← sound (value.toJson depth)
      let (tag, more) ← rest.tagged all name depth tag
      return (tag, (k, j) :: more)

/-- A tagged record inside of `depth` arrays and objects. In an array the tag comes first. -/
def Doc.tagged {α : Type} (all : List α) (name : α → String) (depth : Nat) :
    Doc → Decoded (α × Fields)
  | .object members => do
    sound (enter depth)
    let (tag, fields) ← members.tagged all name (depth + 1) none
    return (tag, .named fields)
  | .array items => do
    sound (enter depth)
    match items with
    | .close => throw (.missingField tagName)
    | .cut => malformed .cutShort
    | .stray => malformed .misplaced
    | .danglingComma => malformed .cutShort
    | .item first rest =>
      let tag ← first.asTag all name
      return (tag, .positional (← sound (rest.toJsons (depth + 1))))
  | d => .error d.mismatch

/-- The tag among the members of an object. -/
def tagAmong {α : Type} (all : List α) (name : α → String) (tag : Option α) :
    List (String × Json) → Decoded α
  | [] => required tag tagName
  | (key, value) :: rest => do
    if key = tagName then
      unset tag tagName
      tagAmong all name (some (← value.asTag all name)) rest
    else tagAmong all name tag rest

/-- Decodes a whole text, behind whose value only blanks may follow. -/
def decodeText {α : Type} (decode : Doc → Decoded α) (source : Source) : Decoded α := do
  let a ← decode source.doc
  if source.trailing then malformed .misplaced else return a

end RecordQuery.Json
