import RajNX.Lib.LittleEndian
import RajNX.Lib.Strtoul

/-!
# Custom settings

The settings of `system_settings.ini` (`setsys_settings_items.cpp`): a name, a key, and a value that starts with its
type. A string is the bytes in front of its terminator, and what an allocation of some size comes to is a parameter.
-/

namespace RajNX.SetMitm

open LittleEndian Strtoul

/-- The results of the settings items that are not a success. -/
inductive SettingsItemResult
  | nameNull
  | keyNull
  | nameEmpty
  | keyEmpty
  | nameTooLong
  | keyTooLong
  | nameInvalidFormat
  | keyInvalidFormat
  | valueInvalidFormat
  | valueAllocationFailed
deriving Repr, DecidableEq

/-- `g_settings_items`: the bytes of each item. -/
abbrev SettingsItems := List UInt8 → Option (List UInt8)

/-- `MaxNameLength` -/
def maxNameLength : Nat := 64

/-- `MaxKeyLength` -/
def maxKeyLength : Nat := 64

/-! ## Names and keys -/

/-- `IsCorrectFormat` -/
def isCorrectFormat (str : List UInt8) (len : Nat) : Bool :=
  if 0 < len ∧ str[len - 1]? = some 0x2E then false
  else (str.take len).all fun c =>
    (0x61 ≤ c && c ≤ 0x7A) || (0x30 ≤ c && c ≤ 0x39) || c = 0x2D || c = 0x2E || c = 0x5F

/-- What `ValidateName` and `ValidateKey` have in common, with their results and bounds. -/
def validate (null empty tooLong invalidFormat : SettingsItemResult) (maxLength max_size : Nat)
    (str : Option (List UInt8)) : Except SettingsItemResult Unit :=
  match str with
  | none => .error null
  | some str =>
    let len := min str.length (min max_size (maxLength + 1))
    if len = 0 then .error empty
    else if maxLength < len then .error tooLong
    else if isCorrectFormat str len then .ok ()
    else .error invalidFormat

/-- `ValidateName`, of a buffer of some size -/
def validateNameSize (name : Option (List UInt8)) (max_size : Nat) : Except SettingsItemResult Unit :=
  validate .nameNull .nameEmpty .nameTooLong .nameInvalidFormat maxNameLength max_size name

/-- `ValidateName` -/
def validateName (name : Option (List UInt8)) : Except SettingsItemResult Unit :=
  validateNameSize name (maxNameLength + 1)

/-- `ValidateKey`, of a buffer of some size -/
def validateKeySize (key : Option (List UInt8)) (max_size : Nat) : Except SettingsItemResult Unit :=
  validate .keyNull .keyEmpty .keyTooLong .keyInvalidFormat maxKeyLength max_size key

/-- `ValidateKey` -/
def validateKey (key : Option (List UInt8)) : Except SettingsItemResult Unit :=
  validateKeySize key (maxKeyLength + 1)

/-! ## Values -/

/-- `tolower` -/
def toLower (c : UInt8) : UInt8 := if 0x41 ≤ c && c ≤ 0x5A then c + 0x20 else c

/-- `strncasecmp(a, b, n) == 0` -/
def strncasecmpEq (a b : List UInt8) (n : Nat) : Bool := (a.take n).map toLower == (b.take n).map toLower

/-- `isxdigit` -/
def isXDigit (c : UInt8) : Bool := (0x30 ≤ c && c ≤ 0x39) || (0x41 ≤ c && c ≤ 0x46) || (0x61 ≤ c && c ≤ 0x66)

/-- `IsHexadecimal` -/
def isHexadecimal (str : List UInt8) : Bool := str.all isXDigit

/-- `hextoi` -/
def hextoi (c : UInt8) : UInt8 :=
  if 0x61 ≤ c ∧ c ≤ 0x66 then c - 0x61 + 0xA
  else if 0x41 ≤ c ∧ c ≤ 0x46 then c - 0x41 + 0xA
  else if 0x30 ≤ c ∧ c ≤ 0x39 then c - 0x30
  else 0

/-- The loop of `ParseValue` over the digits of `hex` and `bytes`, from the digit of index `i` on. -/
def packDigits (data : List UInt8) (i : Nat) : List UInt8 → List UInt8
  | [] => data
  | c :: value_str =>
    packDigits (data.modify (i / 2) (· ||| hextoi c <<< (4 * UInt8.ofNat (i % 2)))) (i + 1) value_str

/-! The words that `ParseValue` compares a type with. -/

abbrev str : List UInt8 := [0x73, 0x74, 0x72]
abbrev string : List UInt8 := [0x73, 0x74, 0x72, 0x69, 0x6E, 0x67]
abbrev hex : List UInt8 := [0x68, 0x65, 0x78]
abbrev bytes : List UInt8 := [0x62, 0x79, 0x74, 0x65, 0x73]
abbrev u8 : List UInt8 := [0x75, 0x38]
abbrev u16 : List UInt8 := [0x75, 0x31, 0x36]
abbrev u32 : List UInt8 := [0x75, 0x33, 0x32]
abbrev u64 : List UInt8 := [0x75, 0x36, 0x34]

/-- `std::string(name).append("!").append(key)` -/
def settingName (name key : List UInt8) : List UInt8 := name ++ 0x21 :: key

/-- The end of `ParseValue`: bytes are put into the table, if there is memory for them. -/
def storeValue (malloc : Nat → Bool) (items : SettingsItems) (kv data : List UInt8) :
    Except SettingsItemResult Unit × SettingsItems :=
  if malloc data.length then (.ok (), Function.update items kv (some data))
  else (.error .valueAllocationFailed, items)

/-- The branches of `ParseValue`, by the first `type_len` characters of what starts at the type. -/
def storeTyped (malloc : Nat → Bool) (items : SettingsItems) (kv type : List UInt8) (type_len : Nat)
    (value_str : List UInt8) : Except SettingsItemResult Unit × SettingsItems :=
  if strncasecmpEq type str type_len || strncasecmpEq type string type_len then
    storeValue malloc items kv (value_str ++ [0])
  else if strncasecmpEq type hex type_len || strncasecmpEq type bytes type_len then
    if value_str.length % 2 ≠ 0 ∨ ¬isHexadecimal value_str then (.error .valueInvalidFormat, items)
    else storeValue malloc items kv (packDigits (List.replicate (value_str.length / 2) 0) 0 value_str)
  else if strncasecmpEq type u8 type_len then storeValue malloc items kv (leBytes 1 (strtoul 0 value_str))
  else if strncasecmpEq type u16 type_len then storeValue malloc items kv (leBytes 2 (strtoul 0 value_str))
  else if strncasecmpEq type u32 type_len then storeValue malloc items kv (leBytes 4 (strtoul 0 value_str))
  else if strncasecmpEq type u64 type_len then storeValue malloc items kv (leBytes 8 (strtoul 0 value_str))
  else (.error .valueInvalidFormat, items)

/-- `ParseValue` -/
def parseValue (malloc : Nat → Bool) (items : SettingsItems) (name key val_tup : List UInt8) :
    Except SettingsItemResult Unit × SettingsItems :=
  -- `strchr(val_tup, '!')`
  match val_tup.findIdx? (· = 0x21) with
  | none => (.error .valueInvalidFormat, items)
  | some delimiter =>
    let value_str := val_tup.drop (delimiter + 1)
    let spaces := ((val_tup.take delimiter).takeWhile isSpace).length
    let type := val_tup.drop spaces
    let type_len := delimiter - spaces
    if value_str.length = 0 ∨ type_len = 0 then (.error .valueInvalidFormat, items)
    else storeTyped malloc items (settingName name key) type type_len value_str

/-- `ParseSettingsItemValue`. Both checks are of the name. -/
def parseSettingsItemValue (malloc : Nat → Bool) (items : SettingsItems) (name key value : List UInt8) :
    Except SettingsItemResult Unit × SettingsItems :=
  match validateName (some name) with
  | .error e => (.error e, items)
  | .ok () =>
    match validateKey (some name) with
    | .error e => (.error e, items)
    | .ok () => parseValue malloc items name key value

/-! ## What a value stands for -/

/-- The types of items. -/
inductive ItemType
  | string
  | bytes
  | number (size : Nat)
deriving Repr, DecidableEq

/-- The words for the types. -/
def typeWords : List (List UInt8 × ItemType) :=
  [(str, .string), (string, .string), (hex, .bytes), (bytes, .bytes), (u8, .number 1), (u16, .number 2),
    (u32, .number 4), (u64, .number 8)]

/-- What may stand behind the mark. -/
def ItemType.Allows (t : ItemType) (payload : List UInt8) : Prop :=
  payload ≠ [] ∧ (t = .bytes → payload.length % 2 = 0 ∧ isHexadecimal payload)

/-- Digits in pairs, the first one of each pair the most significant one. -/
def digitPairs : List UInt8 → List UInt8
  | d :: d' :: digits => (16 * hextoi d + hextoi d') :: digitPairs digits
  | _ => []

/-- The bytes that an item as written has. -/
def ItemType.value (t : ItemType) (payload : List UInt8) : List UInt8 :=
  match t with
  | .string => payload ++ [0]
  | .bytes => digitPairs payload
  | .number size => leBytes size (strtoul 0 payload)

/-- A value as it is to be written: white space, the word for a type in any case, a mark and a payload. -/
structure Denotes (value : List UInt8) (t : ItemType) (payload : List UInt8) : Prop where
  form : ∃ spaces type, value = spaces ++ type ++ 0x21 :: payload ∧ (∀ c ∈ spaces, isSpace c) ∧
    (type.map toLower, t) ∈ typeWords
  allows : t.Allows payload

/-- The item is stored as it is written, or nothing is stored and it is not to be. -/
def AsWritten (malloc : Nat → Bool) (items : SettingsItems) (name key value : List UInt8) : Prop :=
  match parseSettingsItemValue malloc items name key value with
  | (.ok (), items') =>
    validateName (some name) = .ok () ∧ validateKey (some key) = .ok () ∧ ∃ t payload, Denotes value t payload ∧
      items' = Function.update items (settingName name key) (some (t.value payload))
  | (.error _, items') =>
    ¬(validateName (some name) = .ok () ∧ validateKey (some key) = .ok () ∧ ∃ t payload, Denotes value t payload) ∧
      items' = items

end RajNX.SetMitm
