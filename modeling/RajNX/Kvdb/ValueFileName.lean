import RajNX.Lib.Fallible
import RajNX.Kvdb.FileKeyValueCache
import RajNX.Lib.CString
import RajNX.Lib.Strtoul

/-!
# The names of value files

`BoundedString` of `kvdb_bounded_string.hpp`, and how `FileKeyValueStore` writes the name of a value file with it and
takes the key from the name again. A function of the model ends in nothing where the source aborts.
-/

namespace RajNX.Kvdb

open CString Strtoul

/-! ## Bounded strings -/

/-- `BoundedString`: the characters of the buffer in front of the terminator. -/
structure BoundedString (n : Nat) where
  chars : List UInt8
  zero_notMem : 0 ∉ chars
  length_lt : chars.length < n

namespace BoundedString

variable {n : Nat}

@[ext] lemma ext {b b' : BoundedString n} (h : b.chars = b'.chars) : b = b' := by
  cases b
  cases b'
  cases h
  rfl

/-- `GetLength` -/
def getLength (b : BoundedString n) : Nat := b.chars.length

lemma length_lt_of_strnlen {s : List UInt8} (h : ¬n ≤ strnlen s n) : (cString s).length < n := by
  rw [strnlen] at h
  omega

/-- `Set`, which is all that the constructor does with a string. -/
def set (s : List UInt8) : Option (BoundedString n) :=
  if h : n ≤ strnlen s n then none
  else some ⟨cString s, zero_notMem_cString s, length_lt_of_strnlen h⟩

/-- The characters of another string behind those of a bounded string. -/
lemma zero_notMem_append (b : BoundedString n) (s : List UInt8) : 0 ∉ b.chars ++ cString s := by
  rw [List.mem_append, not_or]
  exact ⟨b.zero_notMem, zero_notMem_cString s⟩

/-- `Append` of a string. -/
def append (b : BoundedString n) (s : List UInt8) : Option (BoundedString n) :=
  if h : n ≤ b.getLength + strnlen s n then none
  else some ⟨b.chars ++ cString s, b.zero_notMem_append s, by
    rw [strnlen, getLength] at h
    rw [List.length_append]
    omega⟩

/-- `Append` of a character. -/
def appendChar (b : BoundedString n) (c : UInt8) : Option (BoundedString n) :=
  if h : n ≤ b.getLength + 1 then none
  else some ⟨b.chars ++ cString [c], b.zero_notMem_append [c], by
    have hle : (cString [c]).length ≤ 1 := (List.takeWhile_prefix _).length_le
    rw [getLength] at h
    rw [List.length_append]
    omega⟩

/-- `AppendFormat`, with the formatted text. -/
def appendFormat (b : BoundedString n) (text : List UInt8) : Option (BoundedString n) :=
  if h : n ≤ (cString text).length + b.getLength then none
  else some ⟨b.chars ++ cString text, b.zero_notMem_append text, by
    rw [getLength] at h
    rw [List.length_append]
    omega⟩

/-- `GetSubstring` to a buffer of some size. -/
def getSubstring (b : BoundedString n) (dstSize offset length : Nat) : Option (List UInt8) :=
  if b.getLength < offset + length ∨ dstSize ≤ length then none else some ((b.chars.drop offset).take length)

/-- `EndsWith`, from an offset on. -/
def endsWithAt (b : BoundedString n) (s : List UInt8) (offset : Nat) : Bool :=
  strncmpEq (b.chars.drop offset) s (n - offset)

/-- `EndsWith` -/
def endsWith (b : BoundedString n) (s : List UInt8) : Bool :=
  decide (strnlen s n ≤ b.getLength) && b.endsWithAt s (b.getLength - strnlen s n)

end BoundedString

/-! ## Names of files -/

/-- `MaxFileLength` -/
def maxFileLength : Nat := 0xFF

/-- `FileExtensionLength` -/
def fileExtensionLength : Nat := 4

def resultKvdbInvalidKeyValue : Nat := makeResult 20 5

namespace FileKeyValueStore

/-- `FileKeyValueStore::Path` -/
abbrev Path : Type := BoundedString maxPathLength

/-- `FileKeyValueStore::FileName` -/
abbrev FileName : Type := BoundedString maxFileLength

/-- The loop of `GetPath` over the bytes of the key. -/
def appendKey (keyPath : Path) : List UInt8 → Option Path
  | [] => some keyPath
  | b :: key => do
    let keyPath ← keyPath.appendFormat (hexByte b)
    appendKey keyPath key

/-- `GetPath` -/
def getPath (dirPath : Path) (key : List UInt8) : Option Path := do
  let keyPath ← BoundedString.set dirPath.chars
  let keyPath ← keyPath.appendChar 0x2F
  let keyPath ← appendKey keyPath key
  keyPath.append fileExtension

/-- The loop of `GetKey`: the bytes of the key from number `i` on. -/
def readKey (fileName : FileName) : Nat → Nat → Option (List UInt8)
  | 0, _ => some []
  | n + 1, i => do
    let substr ← fileName.getSubstring 3 (2 * i) 2
    let outKey ← readKey fileName n (i + 1)
    some (.ofNat (strtoul 0x10 substr) :: outKey)

/-- `GetKey`: the size of the key and the key, or the result that is not a success. -/
def getKey (fileName : FileName) (maxOutSize : Nat) : Option (Except Nat (Nat × List UInt8)) :=
  let fileNameLen := fileName.getLength
  let keyNameLen := (fileNameLen + 2 ^ 64 - fileExtensionLength) % 2 ^ 64
  if fileNameLen < fileExtensionLength + 2 ∨ ¬fileName.endsWith fileExtension ∨ keyNameLen % 2 ≠ 0 then
    some (.error resultKvdbInvalidKeyValue)
  else
    let keySize := keyNameLen / 2
    if maxOutSize < keySize then some (.error resultKvdbBufferInsufficient)
    else do
      let outKey ← readKey fileName keySize 0
      some (.ok (keySize, outKey))

/-- What is behind the last slash of a path. -/
def fileNamePart (path : List UInt8) : List UInt8 := (path.reverse.takeWhile (· ≠ 0x2F)).reverse

end FileKeyValueStore

/-! ## Paths as strings -/

section Paths

variable {path : FileKeyValueStore.Path} {s key : List UInt8} {c : UInt8}

/-- A bounded string is copied by its characters. -/
lemma set_chars {n : Nat} (b : BoundedString n) : BoundedString.set b.chars = some b := by
  have hcopy := cString_of_notMem b.zero_notMem
  have hlt := b.length_lt
  rw [BoundedString.set, dif_neg (by rw [strnlen, hcopy]; omega)]
  exact congrArg some (BoundedString.ext hcopy)

lemma append_chars (h : 0 ∉ s) : (path.append s).map BoundedString.chars = appendPath path.chars s := by
  have hcopy := cString_of_notMem h
  have hlen : path.getLength + strnlen s maxPathLength = path.chars.length + min s.length maxPathLength := by
    rw [strnlen, hcopy]
    rfl
  have hpath := path.length_lt
  rw [BoundedString.append, appendPath]
  split
  · rw [if_pos (by omega)]
    rfl
  · rw [if_neg (by omega), ← congrArg (path.chars ++ ·) hcopy]
    rfl

lemma appendFormat_chars (h : 0 ∉ s) : (path.appendFormat s).map BoundedString.chars = appendPath path.chars s := by
  have hcopy := cString_of_notMem h
  have hlen : (cString s).length + path.getLength = path.chars.length + s.length := by
    rw [hcopy, Nat.add_comm]
    rfl
  rw [BoundedString.appendFormat, appendPath]
  split
  · rw [if_pos (by omega)]
    rfl
  · rw [if_neg (by omega), ← congrArg (path.chars ++ ·) hcopy]
    rfl

lemma appendChar_chars (h : c ≠ 0) : (path.appendChar c).map BoundedString.chars = appendPath path.chars [c] := by
  have hcopy : cString [c] = [c] := cString_of_notMem fun hmem => h (List.mem_singleton.mp hmem).symm
  have hlen : path.getLength + 1 = path.chars.length + [c].length := rfl
  rw [BoundedString.appendChar, appendPath]
  split
  · rw [if_pos (by omega)]
    rfl
  · rw [if_neg (by omega), ← congrArg (path.chars ++ ·) hcopy]
    rfl

/-- A digit is no terminator and no slash. -/
lemma hexByte_notMem (b : UInt8) : 0 ∉ hexByte b ∧ 0x2F ∉ hexByte b := by
  have hall : ∀ i < 16, hexChar i ≠ 0 ∧ hexChar i ≠ 0x2F := by decide
  have hb := b.toNat_lt
  have hhigh := hall (b.toNat / 16) (by omega)
  have hlow := hall (b.toNat % 16) (by omega)
  simp only [hexByte, List.mem_cons, List.not_mem_nil, or_false, not_or]
  exact ⟨⟨hhigh.1.symm, hlow.1.symm⟩, ⟨hhigh.2.symm, hlow.2.symm⟩⟩

lemma appendKey_chars : (FileKeyValueStore.appendKey path key).map BoundedString.chars = appendKey path.chars key := by
  induction key generalizing path with
  | nil => rfl
  | cons b key ih =>
    rw [FileKeyValueStore.appendKey, appendKey, ← appendFormat_chars (hexByte_notMem b).1]
    cases path.appendFormat (hexByte b) with
    | none => rfl
    | some path' => exact ih

/-- The path is the one of the model over plain strings, and aborts are the same. -/
lemma getPath_chars (dirPath : FileKeyValueStore.Path) (key : List UInt8) :
    (FileKeyValueStore.getPath dirPath key).map BoundedString.chars = getPath dirPath.chars key := by
  rw [FileKeyValueStore.getPath, getPath, set_chars, ← appendChar_chars (by decide)]
  cases hslash : dirPath.appendChar 0x2F with
  | none =>
    rw [Fallible.some_bind, hslash]
    rfl
  | some path =>
    rw [Fallible.some_bind, hslash, Fallible.some_bind, Option.map_some, Fallible.some_bind, ← appendKey_chars]
    cases FileKeyValueStore.appendKey path key with
    | none => rfl
    | some path' => exact append_chars (by decide)

end Paths

/-! ## Keys from names -/

section Names

variable {fileName : FileKeyValueStore.FileName} {key : List UInt8}

lemma hexChar_digit {n : Nat} (h : n < 16) : digitValue (hexChar n) = n := by
  have hall : ∀ i < 16, digitValue (hexChar i) = i := by decide
  exact hall n h

/-- A byte in the format `%02x` is read as that byte. -/
lemma strtoul_hexByte (b : UInt8) : strtoul 0x10 (hexByte b) = b.toNat := by
  have hb := b.toNat_lt
  have hhigh := hexChar_digit (show b.toNat / 16 < 16 by omega)
  have hlow := hexChar_digit (show b.toNat % 16 < 16 by omega)
  have hdigits : ∀ c ∈ hexByte b, digitValue c < 16 := by
    simp only [hexByte, List.mem_cons, List.not_mem_nil, or_false]
    rintro c (rfl | rfl) <;> omega
  rw [strtoul_digits hdigits (show 2 ≤ 16 by decide)]
  simp only [ofDigits, hexByte, List.foldl_cons, List.foldl_nil, hhigh, hlow]
  omega

lemma length_flatMap_hexByte : (key.flatMap hexByte).length = 2 * key.length := by
  induction key with
  | nil => rfl
  | cons b key ih =>
    rw [List.flatMap_cons, List.length_append, ih, List.length_cons, Nat.mul_add, Nat.add_comm]
    rfl

lemma flatMap_hexByte_notMem : 0 ∉ key.flatMap hexByte ∧ 0x2F ∉ key.flatMap hexByte := by
  simp only [List.mem_flatMap, not_exists, not_and]
  exact ⟨fun b _ => (hexByte_notMem b).1, fun b _ => (hexByte_notMem b).2⟩

/-- The loop reads the bytes that are written in a name. -/
lemma readKey_eq {front rest : List UInt8} {i : Nat} (hfront : front.length = 2 * i)
    (hchars : fileName.chars = front ++ key.flatMap hexByte ++ rest) :
    FileKeyValueStore.readKey fileName key.length i = some key := by
  induction key generalizing front i with
  | nil => rfl
  | cons b key ih =>
    have hbyte : (hexByte b).length = 2 := rfl
    have hlen : fileName.getLength = front.length + (2 + 2 * key.length) + rest.length := by
      rw [BoundedString.getLength, hchars, List.length_append, List.length_append, List.flatMap_cons,
        List.length_append, length_flatMap_hexByte]
      rfl
    have hsubstr : fileName.getSubstring 3 (2 * i) 2 = some (hexByte b) := by
      rw [BoundedString.getSubstring, if_neg (by omega), hchars, List.append_assoc, List.drop_left' hfront,
        List.flatMap_cons, List.append_assoc, List.take_left' hbyte]
    have hnext := @ih (front ++ hexByte b) (i + 1) (by rw [List.length_append]; omega)
      (by rw [hchars, List.flatMap_cons, List.append_assoc front (hexByte b)])
    rw [List.length_cons, FileKeyValueStore.readKey, hsubstr, Fallible.some_bind, hnext,
      strtoul_hexByte, UInt8.ofNat_toNat]
    rfl

/-- The key of a name that is made from it. -/
lemma getKey_eq (hpos : 1 ≤ key.length) (hchars : fileName.chars = key.flatMap hexByte ++ fileExtension)
    {maxOutSize : Nat} (hmax : key.length ≤ maxOutSize) :
    FileKeyValueStore.getKey fileName maxOutSize = some (.ok (key.length, key)) := by
  have hlen : fileName.getLength = 2 * key.length + 4 := by
    rw [BoundedString.getLength, hchars, List.length_append, length_flatMap_hexByte]
    rfl
  have hlt : fileName.getLength < maxFileLength := fileName.length_lt
  have hsuffix : strnlen fileExtension maxFileLength = 4 := by decide
  have hends : fileName.endsWith fileExtension = true := by
    rw [BoundedString.endsWith, hsuffix, decide_eq_true (by omega), Bool.true_and, BoundedString.endsWithAt, hlen,
      Nat.add_sub_cancel, hchars, List.drop_left' length_flatMap_hexByte, strncmpEq]
    exact beq_self_eq_true _
  have hname : (fileName.getLength + 2 ^ 64 - fileExtensionLength) % 2 ^ 64 = 2 * key.length := by
    rw [hlen, fileExtensionLength]
    rw [hlen, maxFileLength] at hlt
    omega
  have hread := @readKey_eq fileName key [] fileExtension 0 rfl hchars
  rw [FileKeyValueStore.getKey, hname, hends, Nat.mul_mod_right, Nat.mul_div_cancel_left _ (by decide), if_neg,
    if_neg (Nat.not_lt.mpr hmax), hread]
  · rfl
  · rw [hlen, fileExtensionLength]
    simp only [not_true_eq_false, ne_eq, or_false]
    omega

/-- The name of a value file, as a file name. -/
def valueFileName (key : List UInt8) (h : key.length ≤ maxKeySize) : FileKeyValueStore.FileName where
  chars := key.flatMap hexByte ++ fileExtension
  zero_notMem := by
    rw [List.mem_append, not_or]
    exact ⟨flatMap_hexByte_notMem.1, by decide⟩
  length_lt := by
    have hmax : maxKeySize = 125 := rfl
    have hext : fileExtension.length = 4 := rfl
    rw [List.length_append, length_flatMap_hexByte, maxFileLength]
    omega

lemma fileNamePart_append {dir name : List UInt8} (h : 0x2F ∉ name) :
    FileKeyValueStore.fileNamePart (dir ++ 0x2F :: name) = name := by
  rw [FileKeyValueStore.fileNamePart, List.reverse_append, List.reverse_cons, List.append_assoc,
    List.takeWhile_append_of_pos]
  · rw [List.singleton_append, List.takeWhile_cons, if_neg (by decide), List.append_nil, List.reverse_reverse]
  · exact fun c hc => decide_eq_true fun heq => h (heq ▸ List.mem_reverse.mp hc)

/-- The path of a key never aborts where the directory leaves room for the longest name. Its last part is a file name,
from which the key is got again, and no other key has the path. -/
theorem getKey_getPath {dirPath : FileKeyValueStore.Path} (hpos : 1 ≤ key.length) (hkey : key.length ≤ maxKeySize)
    (hdir : dirPath.getLength + 1 + (2 * maxKeySize + fileExtensionLength) < maxPathLength) :
    ∃ path fileName, FileKeyValueStore.getPath dirPath key = some path ∧
      (BoundedString.set (FileKeyValueStore.fileNamePart path.chars) : Option FileKeyValueStore.FileName) =
        some fileName ∧
      path.chars = dirPath.chars ++ 0x2F :: fileName.chars ∧
      (∀ maxOutSize, key.length ≤ maxOutSize →
        FileKeyValueStore.getKey fileName maxOutSize = some (.ok (key.length, key))) ∧
      ∀ key', FileKeyValueStore.getPath dirPath key' = some path → key' = key := by
  have hroom : dirPath.chars.length + 1 + 2 * key.length + 4 < maxPathLength := by
    rw [BoundedString.getLength, fileExtensionLength] at hdir
    omega
  obtain ⟨chars, hchars⟩ := getPath_isSome hroom
  obtain ⟨path, hpath, rfl⟩ := Option.map_eq_some_iff.mp ((getPath_chars dirPath key).trans hchars)
  have heq : path.chars = dirPath.chars ++ 0x2F :: (valueFileName key hkey).chars := by
    rw [getPath_eq hchars, List.append_assoc, List.append_assoc]
    rfl
  have hslash : 0x2F ∉ (valueFileName key hkey).chars := by
    rw [valueFileName, List.mem_append, not_or]
    exact ⟨flatMap_hexByte_notMem.2, by decide⟩
  refine ⟨path, valueFileName key hkey, hpath, ?_, heq, fun _ => getKey_eq hpos rfl, fun key' hpath' => ?_⟩
  · rw [heq, fileNamePart_append hslash]
    exact set_chars _
  · have hchars' := (getPath_chars dirPath key').symm.trans (congrArg (Option.map _) hpath')
    exact getPath_inj hchars' hchars

/-- The longest key in a directory. -/
theorem getKey_getPath_example :
    ∃ path fileName, FileKeyValueStore.getPath ⟨[0x73, 0x64, 0x3A], by decide, by decide⟩ (List.replicate 125 0xFF) =
        some path ∧
      path.chars = [0x73, 0x64, 0x3A] ++ 0x2F :: fileName.chars ∧
      FileKeyValueStore.getKey fileName 125 = some (.ok (125, List.replicate 125 0xFF)) := by
  obtain ⟨path, fileName, hpath, -, hchars, hkey, -⟩ :=
    @getKey_getPath (List.replicate 125 0xFF) ⟨[0x73, 0x64, 0x3A], by decide, by decide⟩
      (by rw [List.length_replicate]; decide) (by rw [List.length_replicate]; decide) (by decide)
  have hkey := hkey 125 List.length_replicate.le
  rw [List.length_replicate] at hkey
  exact ⟨path, fileName, hpath, hchars, hkey⟩

end Names

end RajNX.Kvdb
