import Mathlib.Algebra.Ring.Nat

/-! # JSON values — documents and their compact text

A value is one of the six JSON shapes.  Numbers keep the three classes a
64-bit encoder distinguishes; a float is represented by the shortest
decimal text that denotes it.  An object lists its members, so a map that
keeps its keys sorted and unique is one particular list.

`encode` is the compact text, without blanks, escaping only what has to be
escaped.  `size` counts its bytes without building it, and
`utf8ByteSize_encode` says that it counts right. -/

namespace JsonValue

/-- A JSON number. -/
inductive Number where
  | posInt (n : Nat)
  | negInt (n : Int)
  | float (text : String)
  deriving DecidableEq, Repr

/-- A JSON value. -/
inductive Json where
  | null
  | bool (b : Bool)
  | number (n : Number)
  | string (s : String)
  | array (items : List Json)
  | object (fields : List (String × Json))
  deriving Repr

namespace Json

-- the deriving handler does not reach through the nested lists
mutual

/-- Equality of values is decidable. -/
def decEq : (a b : Json) → Decidable (a = b)
  | .null, .null => isTrue rfl
  | .bool a, .bool b => decidable_of_iff (a = b) (by simp)
  | .number a, .number b => decidable_of_iff (a = b) (by simp)
  | .string a, .string b => decidable_of_iff (a = b) (by simp)
  | .array a, .array b =>
    match decEqItems a b with
    | isTrue h => isTrue (by rw [h])
    | isFalse h => isFalse fun he => h (Json.array.inj he)
  | .object a, .object b =>
    match decEqFields a b with
    | isTrue h => isTrue (by rw [h])
    | isFalse h => isFalse fun he => h (Json.object.inj he)
  | .null, .bool _ | .null, .number _ | .null, .string _ | .null, .array _
  | .null, .object _ | .bool _, .null | .bool _, .number _
  | .bool _, .string _ | .bool _, .array _ | .bool _, .object _
  | .number _, .null | .number _, .bool _ | .number _, .string _
  | .number _, .array _ | .number _, .object _ | .string _, .null
  | .string _, .bool _ | .string _, .number _ | .string _, .array _
  | .string _, .object _ | .array _, .null | .array _, .bool _
  | .array _, .number _ | .array _, .string _ | .array _, .object _
  | .object _, .null | .object _, .bool _ | .object _, .number _
  | .object _, .string _ | .object _, .array _ => isFalse nofun

/-- Equality of array contents. -/
def decEqItems : (a b : List Json) → Decidable (a = b)
  | [], [] => isTrue rfl
  | [], _ :: _ => isFalse nofun
  | _ :: _, [] => isFalse nofun
  | a :: as, b :: bs =>
    match decEq a b, decEqItems as bs with
    | isTrue h, isTrue hs => isTrue (by rw [h, hs])
    | isFalse h, _ => isFalse fun he => h (List.cons.inj he).1
    | _, isFalse hs => isFalse fun he => hs (List.cons.inj he).2

/-- Equality of object members. -/
def decEqFields : (a b : List (String × Json)) → Decidable (a = b)
  | [], [] => isTrue rfl
  | [], _ :: _ => isFalse nofun
  | _ :: _, [] => isFalse nofun
  | (k, a) :: as, (l, b) :: bs =>
    match decEq a b, decEqFields as bs with
    | isTrue h, isTrue hs =>
      decidable_of_iff (k = l) (by rw [h, hs]; simp)
    | isFalse h, _ =>
      isFalse fun he => h (Prod.mk.inj (List.cons.inj he).1).2
    | _, isFalse hs => isFalse fun he => hs (List.cons.inj he).2

end

instance : DecidableEq Json := decEq

/-- The value is an object. -/
def isObject : Json → Bool
  | .object _ => true
  | _ => false

/-- A member of a map with sorted keys is added or replaced. -/
def insertField (key : String) (value : Json) : List (String × Json) → List (String × Json)
  | [] => [(key, value)]
  | (k, v) :: rest =>
    if key = k then (key, value) :: rest
    else if key < k then (key, value) :: (k, v) :: rest
    else (k, v) :: insertField key value rest

/-! ## The compact text -/

/-- A character inside a string. -/
def escapeChar (c : Char) : String :=
  match c.toNat with
  | 34 => "\\\""
  | 92 => "\\\\"
  | 8 => "\\b"
  | 9 => "\\t"
  | 10 => "\\n"
  | 12 => "\\f"
  | 13 => "\\r"
  | n =>
    if n < 16 then "\\u000" ++ String.singleton (Nat.digitChar n)
    else if n < 32 then "\\u001" ++ String.singleton (Nat.digitChar (n - 16))
    else String.singleton c

/-- The characters of a string. -/
def escape : List Char → String
  | [] => ""
  | c :: rest => escapeChar c ++ escape rest

/-- A string in quotes. -/
def quote (text : String) : String := "\"" ++ escape text.toList ++ "\""

/-- A number. -/
def encodeNumber : Number → String
  | .posInt n => Nat.repr n
  | .negInt n => Int.repr n
  | .float text => text

/-- What stands between an element and the rest. -/
def comma {α : Type} (rest : List α) : String :=
  if rest.isEmpty then "" else ","

mutual

/-- The text of a value. -/
def encode : Json → String
  | .null => "null"
  | .bool true => "true"
  | .bool false => "false"
  | .number n => encodeNumber n
  | .string text => quote text
  | .array items => "[" ++ encodeItems items ++ "]"
  | .object fields => "\x7b" ++ encodeFields fields ++ "\x7d"

/-- The elements of an array. -/
def encodeItems : List Json → String
  | [] => ""
  | v :: rest => encode v ++ comma rest ++ encodeItems rest

/-- The members of an object. -/
def encodeFields : List (String × Json) → String
  | [] => ""
  | (k, v) :: rest =>
    quote k ++ ":" ++ encode v ++ comma rest ++ encodeFields rest

end

/-! ## Its size -/

/-- The bytes of a character inside a string. -/
def charSize (c : Char) : Nat :=
  match c.toNat with
  | 34 | 92 | 8 | 9 | 10 | 12 | 13 => 2
  | n => if n < 32 then 6 else c.utf8Size

/-- The bytes of a string in quotes. -/
def stringSize (text : String) : Nat := 2 + (text.toList.map charSize).sum

/-- The bytes of a comma that is needed. -/
def commaSize {α : Type} (rest : List α) : Nat := if rest.isEmpty then 0 else 1

mutual

/-- The bytes of a value. -/
def size : Json → Nat
  | .null => 4
  | .bool true => 4
  | .bool false => 5
  | .number n => (encodeNumber n).utf8ByteSize
  | .string text => stringSize text
  | .array items => 2 + sizeItems items
  | .object fields => 2 + sizeFields fields

/-- The bytes of the elements of an array. -/
def sizeItems : List Json → Nat
  | [] => 0
  | v :: rest => size v + commaSize rest + sizeItems rest

/-- The bytes of the members of an object. -/
def sizeFields : List (String × Json) → Nat
  | [] => 0
  | (k, v) :: rest =>
    stringSize k + 1 + size v + commaSize rest + sizeFields rest

end

/-- A hexadecimal digit is one byte. -/
theorem utf8ByteSize_digitChar {n : Nat} (h : n < 16) :
    (String.singleton (Nat.digitChar n)).utf8ByteSize = 1 := by
  revert n
  decide

theorem utf8ByteSize_escapeChar (c : Char) : (escapeChar c).utf8ByteSize = charSize c := by
  unfold escapeChar charSize
  split
  any_goals rfl
  -- a control character, or one that stands for itself
  split
  · next h =>
    rw [String.utf8ByteSize_append, utf8ByteSize_digitChar h, if_pos (by omega)]
    rfl
  split
  · next h =>
    rw [String.utf8ByteSize_append, utf8ByteSize_digitChar (by omega)]
    rfl
  · exact String.utf8ByteSize_singleton

theorem utf8ByteSize_escape (chars : List Char) :
    (escape chars).utf8ByteSize = (chars.map charSize).sum := by
  induction chars with
  | nil => rfl
  | cons c rest ih =>
    rw [escape, String.utf8ByteSize_append, utf8ByteSize_escapeChar, ih,
      List.map_cons, List.sum_cons]

theorem utf8ByteSize_quote (text : String) : (quote text).utf8ByteSize = stringSize text := by
  rw [quote, String.utf8ByteSize_append, String.utf8ByteSize_append,
    utf8ByteSize_escape, stringSize]
  show 1 + _ + 1 = _
  omega

theorem utf8ByteSize_comma {α : Type} (rest : List α) :
    (comma rest).utf8ByteSize = commaSize rest := by
  cases rest with
  | nil | cons a rest => rfl

mutual

/-- **THE SIZE OF A VALUE** is the number of bytes of its text. -/
theorem utf8ByteSize_encode : (v : Json) → (encode v).utf8ByteSize = size v
  | .null => rfl
  | .bool true => rfl
  | .bool false => rfl
  | .number n => rfl
  | .string text => utf8ByteSize_quote text
  | .array items => by
      rw [encode, size, String.utf8ByteSize_append,
        String.utf8ByteSize_append, utf8ByteSize_encodeItems items]
      show 1 + _ + 1 = _
      omega
  | .object fields => by
      rw [encode, size, String.utf8ByteSize_append,
        String.utf8ByteSize_append, utf8ByteSize_encodeFields fields]
      show 1 + _ + 1 = _
      omega

theorem utf8ByteSize_encodeItems : (items : List Json) →
    (encodeItems items).utf8ByteSize = sizeItems items
  | [] => rfl
  | v :: rest => by
      rw [encodeItems, sizeItems, String.utf8ByteSize_append,
        String.utf8ByteSize_append, utf8ByteSize_encode v,
        utf8ByteSize_comma, utf8ByteSize_encodeItems rest]

theorem utf8ByteSize_encodeFields : (fields : List (String × Json)) →
    (encodeFields fields).utf8ByteSize = sizeFields fields
  | [] => rfl
  | (k, v) :: rest => by
      simp only [encodeFields, sizeFields, String.utf8ByteSize_append,
        utf8ByteSize_quote, utf8ByteSize_encode v, utf8ByteSize_comma,
        utf8ByteSize_encodeFields rest]
      rfl

end

end Json

end JsonValue
