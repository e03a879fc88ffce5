import RajNX.SetMitm.SettingsItems

/-!
# What settings are parsed to

A value is read up to its first mark, and the type is what is left there behind the white space. `ParseValue` compares
no more characters than the type has, so that any beginning of a word is taken for the word (`Reads`), and it puts the
first digit of each pair into the low half of the byte. The key is not checked at all.
-/

namespace RajNX.SetMitm

open LittleEndian Strtoul

/-! ## Types -/

/-- The first type with a word that begins as what is given, in any case. -/
def typeOf (type : List UInt8) : Option ItemType :=
  (typeWords.find? fun w => type.map toLower <+: w.1).map Prod.snd

section Words

variable {type word rest : List UInt8} {t : ItemType}

lemma map_toLower_word (h : (word, t) ∈ typeWords) : word.map toLower = word := by
  have hall : ∀ w ∈ typeWords, w.1.map toLower = w.1 := by decide
  exact hall _ h

/-- The comparison takes any beginning of a word for the word. -/
lemma strncasecmpEq_iff (hword : word.map toLower = word) :
    strncasecmpEq (type ++ rest) word type.length = true ↔ type.map toLower <+: word := by
  rw [strncasecmpEq, beq_iff_eq, List.take_left' rfl, ← List.map_take.symm, hword, List.prefix_iff_eq_take,
    List.length_map]

/-- Each word is of the type that it is the word for. -/
lemma typeOf_word (h : (type.map toLower, t) ∈ typeWords) : typeOf type = some t := by
  have hall : ∀ w ∈ typeWords, (typeWords.find? fun w' => w.1 <+: w'.1).map Prod.snd = some w.2 := by decide
  exact hall _ h

lemma toLower_of_isSpace {c : UInt8} (h : isSpace c) : toLower c = c := by
  rw [toLower, if_neg]
  intro hupper
  simp only [isSpace, Bool.or_eq_true, Bool.and_eq_true, decide_eq_true_eq, UInt8.le_iff_toNat_le] at h hupper
  obtain rfl | h := h
  · exact absurd hupper.1 (by decide)
  · have hle := hupper.1.trans h.2
    exact absurd hle (by decide)

/-- There are no marks and no white space in a type. -/
lemma notMem_of_typeOf (h : typeOf type = some t) : 0x21 ∉ type ∧ ∀ c ∈ type, ¬isSpace c := by
  obtain ⟨w, hfind, -⟩ := Option.map_eq_some_iff.mp h
  have hbegin : type.map toLower <+: w.1 := by
    simpa using List.find?_some hfind
  have hchars : typeWords.all fun w => w.1.all fun c => c ≠ 0x21 && !isSpace c := rfl
  have hlower : ∀ c ∈ type, toLower c ≠ 0x21 ∧ ¬isSpace (toLower c) := by
    intro c hc
    have hword := List.all_eq_true.mp hchars w (List.mem_of_find?_eq_some hfind)
    have hchar := List.all_eq_true.mp hword _ (hbegin.subset (List.mem_map_of_mem hc))
    simpa using hchar
  refine ⟨fun hmark => (hlower _ hmark).1 (by decide), fun c hc hspace => (hlower c hc).2 ?_⟩
  rwa [toLower_of_isSpace hspace]

end Words

/-! ## Digits -/

/-- Digits in pairs, the first one of each pair in the low half. -/
def lowFirst : List UInt8 → List UInt8
  | d :: d' :: digits => (hextoi d ||| hextoi d' <<< 4) :: lowFirst digits
  | _ => []

/-- The digits of each pair have the same value. -/
def EqualDigits : List UInt8 → Prop
  | d :: d' :: digits => hextoi d = hextoi d' ∧ EqualDigits digits
  | _ => True

section Digits

variable {digits : List UInt8}

lemma modify_append (done : List UInt8) (b : UInt8) (rest : List UInt8) (f : UInt8 → UInt8) :
    (done ++ b :: rest).modify done.length f = done ++ f b :: rest := by
  induction done with
  | nil => rfl
  | cons c done ih => exact congrArg (c :: ·) ih

/-- The loop over the digits fills a byte with each pair of them. -/
lemma packDigits_append (done : List UInt8) (heven : digits.length % 2 = 0) :
    packDigits (done ++ List.replicate (digits.length / 2) 0) (2 * done.length) digits = done ++ lowFirst digits := by
  induction digits using lowFirst.induct generalizing done with
  | case1 d d' digits ih =>
    have heven' : digits.length % 2 = 0 := by
      rw [List.length_cons, List.length_cons] at heven
      omega
    have hlen : (d :: d' :: digits).length / 2 = digits.length / 2 + 1 := by
      rw [List.length_cons, List.length_cons]
      omega
    have hlow : 2 * done.length / 2 = done.length ∧ 2 * done.length % 2 = 0 := by omega
    have hhigh : (2 * done.length + 1) / 2 = done.length ∧ (2 * done.length + 1) % 2 = 1 := by omega
    have hnext : 2 * done.length + 1 + 1 = 2 * (done ++ [hextoi d ||| hextoi d' <<< 4]).length := by
      rw [List.length_append, List.length_singleton]
      omega
    have hbyte : (0 : UInt8) ||| hextoi d <<< (4 * UInt8.ofNat 0) ||| hextoi d' <<< (4 * UInt8.ofNat 1) =
        hextoi d ||| hextoi d' <<< 4 := by
      simp
    rw [hlen, List.replicate_succ, packDigits, packDigits, hlow.1, hlow.2, hhigh.1, hhigh.2, modify_append,
      modify_append, hbyte, hnext, List.append_cons, ih _ heven', lowFirst]
    exact (List.append_cons _ _ _).symm
  | case2 digits h =>
    obtain _ | ⟨d, _ | ⟨d', digits⟩⟩ := digits
    · exact (List.append_nil _).trans (List.append_nil _).symm
    · exact absurd heven (by simp)
    · exact absurd rfl (h d d' digits)

lemma packDigits_eq (heven : digits.length % 2 = 0) :
    packDigits (List.replicate (digits.length / 2) 0) 0 digits = lowFirst digits :=
  packDigits_append [] heven

lemma length_lowFirst (digits : List UInt8) : (lowFirst digits).length = (digitPairs digits).length := by
  induction digits using lowFirst.induct with
  | case1 d d' digits ih => rw [lowFirst, digitPairs, List.length_cons, List.length_cons, ih]
  | case2 digits h => rw [lowFirst, digitPairs] <;> exact h

lemma hextoi_lt (c : UInt8) : hextoi c < 16 := by
  simp only [hextoi, UInt8.le_iff_toNat_le, UInt8.lt_iff_toNat_lt, UInt8.reduceToNat]
  split
  · next h =>
    simp only [UInt8.toNat_add, UInt8.toNat_sub, UInt8.reduceToNat]
    omega
  split
  · next h =>
    simp only [UInt8.toNat_add, UInt8.toNat_sub, UInt8.reduceToNat]
    omega
  split
  · next h =>
    simp only [UInt8.toNat_sub, UInt8.reduceToNat]
    omega
  · decide

/-- A byte has its halves in the one order and in the other if they are equal. -/
lemma halves_eq_iff {a b : UInt8} (ha : a < 16) (hb : b < 16) : a ||| b <<< 4 = 16 * a + b ↔ a = b := by
  have hall : ∀ i j : Fin 16, UInt8.ofNat i ||| UInt8.ofNat j <<< 4 = 16 * UInt8.ofNat i + UInt8.ofNat j ↔
      UInt8.ofNat i = UInt8.ofNat j := by
    decide
  have h := hall ⟨a.toNat, UInt8.lt_iff_toNat_lt.mp ha⟩ ⟨b.toNat, UInt8.lt_iff_toNat_lt.mp hb⟩
  rwa [UInt8.ofNat_toNat, UInt8.ofNat_toNat] at h

lemma lowFirst_eq_iff (heven : digits.length % 2 = 0) : lowFirst digits = digitPairs digits ↔ EqualDigits digits := by
  induction digits using lowFirst.induct with
  | case1 d d' digits ih =>
    have heven' : digits.length % 2 = 0 := by
      rw [List.length_cons, List.length_cons] at heven
      omega
    rw [lowFirst, digitPairs, EqualDigits, List.cons_eq_cons, halves_eq_iff (hextoi_lt d) (hextoi_lt d'), ih heven']
  | case2 digits h =>
    obtain _ | ⟨d, _ | ⟨d', digits⟩⟩ := digits
    · exact iff_of_true rfl trivial
    · exact absurd heven (by simp)
    · exact absurd rfl (h d d' digits)

end Digits

/-! ## Values -/

instance (t : ItemType) (payload : List UInt8) : Decidable (t.Allows payload) :=
  inferInstanceAs (Decidable (_ ∧ (_ → _)))

/-- The bytes that `ParseValue` makes of an item. -/
def ItemType.parsed (t : ItemType) (payload : List UInt8) : List UInt8 :=
  match t with
  | .bytes => packDigits (List.replicate (payload.length / 2) 0) 0 payload
  | t => t.value payload

section Values

variable {malloc : Nat → Bool} {items : SettingsItems} {name key value spaces front type payload : List UInt8}
  {t : ItemType}

/-- White space is skipped up to the type. -/
lemma dropWhile_spaces (hspaces : ∀ c ∈ spaces, isSpace c) (htype : ∀ c ∈ type, ¬isSpace c) :
    (spaces ++ type).dropWhile isSpace = type := by
  rw [List.dropWhile_append_of_pos hspaces]
  cases type with
  | nil => rfl
  | cons c type => rw [List.dropWhile_cons_of_neg (htype c List.mem_cons_self)]

/-- What is done for a type. -/
lemma storeTyped_eq (hpayload : payload ≠ []) (rest : List UInt8) :
    storeTyped malloc items name (type ++ rest) type.length payload =
      match typeOf type with
      | none => (.error .valueInvalidFormat, items)
      | some t =>
        if t.Allows payload then storeValue malloc items name (t.parsed payload)
        else (.error .valueInvalidFormat, items) := by
  have hword : ∀ word t, (word, t) ∈ typeWords →
      strncasecmpEq (type ++ rest) word type.length = decide (type.map toLower <+: word) :=
    fun word t h => Bool.eq_iff_iff.mpr ((strncasecmpEq_iff (map_toLower_word h)).trans decide_eq_true_iff.symm)
  rw [storeTyped, hword str .string (by decide), hword string .string (by decide), hword hex .bytes (by decide),
    hword bytes .bytes (by decide), hword u8 (.number 1) (by decide), hword u16 (.number 2) (by decide),
    hword u32 (.number 4) (by decide), hword u64 (.number 8) (by decide), typeOf, typeWords]
  have hstring : ItemType.string.Allows payload := ⟨hpayload, nofun⟩
  have hnumber : ∀ size, (ItemType.number size).Allows payload := fun size => ⟨hpayload, nofun⟩
  have hbytes : (payload.length % 2 ≠ 0 ∨ ¬isHexadecimal payload) ↔ ¬ItemType.bytes.Allows payload := by
    rw [← not_and_or, not_iff_not]
    exact ⟨fun h => ⟨hpayload, fun _ => h⟩, fun h => h.2 rfl⟩
  simp only [hbytes, ite_not]
  -- the words in the order in which the source compares them
  by_cases hstr : type.map toLower <+: str
  · simp [hstr, hstring, ItemType.parsed, ItemType.value]
  by_cases hstring' : type.map toLower <+: string
  · simp [hstr, hstring', hstring, ItemType.parsed, ItemType.value]
  by_cases hhex : type.map toLower <+: hex
  · simp [hstr, hstring', hhex, ItemType.parsed]
  by_cases hbytes' : type.map toLower <+: bytes
  · simp [hstr, hstring', hhex, hbytes', ItemType.parsed]
  by_cases hu8 : type.map toLower <+: u8
  · simp [hstr, hstring', hhex, hbytes', hu8, hnumber, ItemType.parsed, ItemType.value]
  by_cases hu16 : type.map toLower <+: u16
  · simp [hstr, hstring', hhex, hbytes', hu8, hu16, hnumber, ItemType.parsed, ItemType.value]
  by_cases hu32 : type.map toLower <+: u32
  · simp [hstr, hstring', hhex, hbytes', hu8, hu16, hu32, hnumber, ItemType.parsed, ItemType.value]
  by_cases hu64 : type.map toLower <+: u64
  · simp [hstr, hstring', hhex, hbytes', hu8, hu16, hu32, hu64, hnumber, ItemType.parsed, ItemType.value]
  · simp [hstr, hstring', hhex, hbytes', hu8, hu16, hu32, hu64]

/-- Where the first mark is. -/
lemma findIdx?_mark (hfront : 0x21 ∉ front) : (front ++ 0x21 :: payload).findIdx? (· = 0x21) = some front.length := by
  have hnone : front.findIdx? (· = 0x21) = none :=
    List.findIdx?_eq_none_iff.mpr fun c hc => decide_eq_false fun heq => hfront (heq ▸ hc)
  rw [List.findIdx?_append, hnone, List.findIdx?_cons]
  simp

/-- A value with a mark, by its type and what stands behind the mark. -/
lemma parseValue_mark (hfront : 0x21 ∉ front) :
    parseValue malloc items name key (front ++ 0x21 :: payload) =
      if payload = [] ∨ front.dropWhile isSpace = [] then (.error .valueInvalidFormat, items)
      else storeTyped malloc items (settingName name key) (front.dropWhile isSpace ++ 0x21 :: payload)
        (front.dropWhile isSpace).length payload := by
  have hpayload : (front ++ 0x21 :: payload).drop (front.length + 1) = payload := by simp
  have hspaces : (front ++ 0x21 :: payload).take front.length = front := List.take_left' rfl
  obtain ⟨spaces, type, hfrontEq, hspacesEq, htypeEq⟩ :
      ∃ spaces type, front = spaces ++ type ∧ front.takeWhile isSpace = spaces ∧ front.dropWhile isSpace = type :=
    ⟨_, _, List.takeWhile_append_dropWhile.symm, rfl, rfl⟩
  have htype : (front ++ 0x21 :: payload).drop spaces.length = type ++ 0x21 :: payload := by
    rw [hfrontEq, List.append_assoc, List.drop_left' rfl]
  have hlen : front.length - spaces.length = type.length := by
    rw [hfrontEq, List.length_append, Nat.add_sub_cancel_left]
  rw [parseValue, findIdx?_mark hfront]
  dsimp only
  rw [hpayload, hspaces, hspacesEq, htypeEq, htype, hlen]
  simp only [List.length_eq_zero_iff]

lemma parseValue_noMark (h : 0x21 ∉ value) :
    parseValue malloc items name key value = (.error .valueInvalidFormat, items) := by
  have hnone : value.findIdx? (· = 0x21) = none :=
    List.findIdx?_eq_none_iff.mpr fun c hc => decide_eq_false fun heq => h (heq ▸ hc)
  rw [parseValue, hnone]

/-- How a value is read: white space, a beginning of the word for a type in any case, a mark and a payload. -/
structure Reads (value type : List UInt8) (t : ItemType) (payload : List UInt8) : Prop where
  form : ∃ spaces, value = spaces ++ type ++ 0x21 :: payload ∧ ∀ c ∈ spaces, isSpace c
  type_ne_nil : type ≠ []
  typeOf : typeOf type = some t
  allows : t.Allows payload

/-- A value that is not read in any way is refused. -/
lemma parseValue_not_reads (h : ∀ type t payload, ¬Reads value type t payload) :
    parseValue malloc items name key value = (.error .valueInvalidFormat, items) := by
  by_cases hmark : 0x21 ∈ value
  · obtain ⟨front, payload, rfl, hfront⟩ := List.eq_append_cons_of_mem hmark
    rw [parseValue_mark hfront]
    split
    · rfl
    · next hne =>
      rw [not_or] at hne
      rw [storeTyped_eq hne.1]
      split
      · rfl
      · next t ht =>
        refine if_neg fun hallows => h _ t payload ⟨⟨front.takeWhile isSpace, ?_, ?_⟩, hne.2, ht, hallows⟩
        · rw [List.takeWhile_append_dropWhile]
        · exact fun c hc => List.mem_takeWhile_imp hc
  · exact parseValue_noMark hmark

/-- A value as it is to be written is read as what it stands for. -/
lemma Denotes.reads (h : Denotes value t payload) :
    ∃ type, Reads value type t payload ∧ (type.map toLower, t) ∈ typeWords := by
  obtain ⟨spaces, type, hvalue, hspaces, hword⟩ := h.form
  have hne : type ≠ [] := by
    rintro rfl
    exact absurd hword (by simp [typeWords])
  exact ⟨type, ⟨⟨spaces, hvalue, hspaces⟩, hne, typeOf_word hword, h.allows⟩, hword⟩

section

variable (h : Reads value type t payload)

include h

lemma Reads.exists_front :
    ∃ front, value = front ++ 0x21 :: payload ∧ 0x21 ∉ front ∧ front.dropWhile isSpace = type := by
  obtain ⟨spaces, hvalue, hspaces⟩ := h.form
  obtain ⟨hmark, hnospace⟩ := notMem_of_typeOf h.typeOf
  refine ⟨spaces ++ type, hvalue, ?_, dropWhile_spaces hspaces hnospace⟩
  rw [List.mem_append, not_or]
  exact ⟨fun hmem => absurd (hspaces _ hmem) (by decide), hmark⟩

/-- A value is read in one way only. -/
lemma Reads.unique {type' payload' : List UInt8} {t' : ItemType}
    (h' : Reads value type' t' payload') : type = type' ∧ t = t' ∧ payload = payload' := by
  obtain ⟨front, hvalue, hmark, htype⟩ := h.exists_front
  obtain ⟨front', hvalue', hmark', htype'⟩ := h'.exists_front
  have heq : front ++ 0x21 :: payload = front' ++ 0x21 :: payload' := hvalue.symm.trans hvalue'
  have hlen : front.length = front'.length := by
    have hidx : (front ++ 0x21 :: payload).findIdx? (· = 0x21) = some front.length := findIdx?_mark hmark
    rw [heq, findIdx?_mark hmark'] at hidx
    exact (Option.some.inj hidx).symm
  obtain ⟨hfront, hpayload⟩ := List.append_inj heq hlen
  have htypes : type = type' := by rw [← htype, ← htype', hfront]
  have ht := h.typeOf
  rw [htypes, h'.typeOf] at ht
  exact ⟨htypes, (Option.some.inj ht).symm, List.tail_eq_of_cons_eq hpayload⟩

/-- What is stored for a value that is read. -/
lemma Reads.parseValue_eq :
    parseValue malloc items name key value = storeValue malloc items (settingName name key) (t.parsed payload) := by
  obtain ⟨front, hvalue, hmark, htype⟩ := h.exists_front
  have hne : ¬(payload = [] ∨ front.dropWhile isSpace = []) := by
    rw [htype, not_or]
    exact ⟨h.allows.1, h.type_ne_nil⟩
  rw [hvalue, parseValue_mark hmark, if_neg hne, storeTyped_eq h.allows.1, htype, h.typeOf]
  exact if_pos h.allows

lemma Reads.denotes (hword : (type.map toLower, t) ∈ typeWords) :
    Denotes value t payload := by
  obtain ⟨spaces, hvalue, hspaces⟩ := h.form
  exact ⟨⟨spaces, type, hvalue, hspaces, hword⟩, h.allows⟩

/-- What is read as a type stands for an item just if it is the word for the type. -/
lemma Reads.denotes_iff {t' : ItemType} {payload' : List UInt8} :
    Denotes value t' payload' ↔ (t' = t ∧ payload' = payload) ∧ (type.map toLower, t) ∈ typeWords := by
  constructor
  · intro h'
    obtain ⟨type', hreads, hword⟩ := h'.reads
    obtain ⟨rfl, rfl, rfl⟩ := h.unique hreads
    exact ⟨⟨rfl, rfl⟩, hword⟩
  · rintro ⟨⟨rfl, rfl⟩, hword⟩
    exact h.denotes hword

end

lemma parsed_eq_iff (h : t.Allows payload) :
    t.parsed payload = t.value payload ↔ (t = .bytes → EqualDigits payload) := by
  cases t with
  | string => exact iff_of_true rfl nofun
  | bytes =>
    obtain ⟨heven, -⟩ := h.2 rfl
    rw [ItemType.parsed, packDigits_eq heven, ItemType.value, lowFirst_eq_iff heven]
    exact ⟨fun heq _ => heq, fun heq => heq rfl⟩
  | number size => exact iff_of_true rfl nofun

lemma length_parsed (h : t.Allows payload) : (t.parsed payload).length = (t.value payload).length := by
  cases t with
  | string => rfl
  | bytes =>
    rw [ItemType.parsed, packDigits_eq (h.2 rfl).1, ItemType.value, length_lowFirst]
  | number size => rfl

/-! ## Settings -/

lemma validate_eq_ok {null empty tooLong invalidFormat : SettingsItemResult} {maxLength max_size : Nat} :
    validate null empty tooLong invalidFormat maxLength max_size (some name) = .ok () ↔
      min name.length (min max_size (maxLength + 1)) ≠ 0 ∧ min name.length (min max_size (maxLength + 1)) ≤ maxLength ∧
        isCorrectFormat name (min name.length (min max_size (maxLength + 1))) := by
  rw [validate]
  split
  · next hzero => exact iff_of_false nofun fun h => h.1 hzero
  · next hzero =>
    split
    · next hlong => exact iff_of_false nofun fun h => Nat.not_lt.mpr h.2.1 hlong
    · next hlong =>
      split
      · next hformat => exact iff_of_true rfl ⟨hzero, Nat.not_lt.mp hlong, hformat⟩
      · next hformat => exact iff_of_false nofun fun h => hformat h.2.2

/-- The checks of names and of keys differ in their results only. -/
lemma validateKey_of_validateName (h : validateName (some name) = .ok ()) : validateKey (some name) = .ok () := by
  rw [validateName, validateNameSize, validate_eq_ok] at h
  rw [validateKey, validateKeySize, validate_eq_ok]
  exact h

lemma parseSettingsItemValue_ok (h : validateName (some name) = .ok ()) :
    parseSettingsItemValue malloc items name key value = parseValue malloc items name key value := by
  rw [parseSettingsItemValue, h, validateKey_of_validateName h]

lemma parseSettingsItemValue_error {e : SettingsItemResult} (h : validateName (some name) = .error e) :
    parseSettingsItemValue malloc items name key value = (.error e, items) := by
  rw [parseSettingsItemValue, h]

/-- A value that is read for a valid name has a valid key, the whole word for its type and pairs of equal digits, if
there is memory for the item, and otherwise no valid key or not the whole word. -/
def ReadAsWritten (malloc : Nat → Bool) (name key value : List UInt8) : Prop :=
  validateName (some name) = .ok () → ∀ type t payload, Reads value type t payload →
    (malloc (t.value payload).length → validateKey (some key) = .ok () ∧ (type.map toLower, t) ∈ typeWords ∧
      (t = .bytes → EqualDigits payload)) ∧
    (¬malloc (t.value payload).length → ¬(validateKey (some key) = .ok () ∧ (type.map toLower, t) ∈ typeWords))

lemma asWritten_of_error {e : SettingsItemResult}
    (hparse : parseSettingsItemValue malloc items name key value = (.error e, items)) :
    AsWritten malloc items name key value ↔ ¬(validateName (some name) = .ok () ∧ validateKey (some key) = .ok () ∧
        ∃ t payload, Denotes value t payload) := by
  rw [AsWritten, hparse]
  exact and_iff_left rfl

lemma Reads.readAsWritten_iff (h : Reads value type t payload) (hname : validateName (some name) = .ok ()) :
    ReadAsWritten malloc name key value ↔
      (malloc (t.value payload).length → validateKey (some key) = .ok () ∧ (type.map toLower, t) ∈ typeWords ∧
        (t = .bytes → EqualDigits payload)) ∧
      (¬malloc (t.value payload).length →
        ¬(validateKey (some key) = .ok () ∧ (type.map toLower, t) ∈ typeWords)) := by
  constructor
  · exact fun hread => hread hname type t payload h
  · rintro hread - type' t' payload' h'
    obtain ⟨rfl, rfl, rfl⟩ := h.unique h'
    exact hread

/-- A value that is read, for a valid name. -/
lemma Reads.asWritten_iff_readAsWritten (h : Reads value type t payload) (hname : validateName (some name) = .ok ()) :
    AsWritten malloc items name key value ↔ ReadAsWritten malloc name key value := by
  have hparse : parseSettingsItemValue malloc items name key value =
      storeValue malloc items (settingName name key) (t.parsed payload) :=
    (parseSettingsItemValue_ok hname).trans h.parseValue_eq
  rw [storeValue, length_parsed h.allows] at hparse
  rw [h.readAsWritten_iff hname]
  by_cases hmem : malloc (t.value payload).length
  · rw [if_pos hmem] at hparse
    rw [AsWritten, hparse]
    constructor
    · rintro ⟨-, hkey, t', payload', hdenotes, heq⟩
      obtain ⟨⟨rfl, rfl⟩, hword⟩ := h.denotes_iff.mp hdenotes
      have hvalue : t'.parsed payload' = t'.value payload' := by
        simpa using congrFun heq (settingName name key)
      exact ⟨fun _ => ⟨hkey, hword, (parsed_eq_iff h.allows).mp hvalue⟩, fun hno => absurd hmem hno⟩
    · intro hread
      obtain ⟨hkey, hword, hdigits⟩ := hread.1 hmem
      refine ⟨hname, hkey, t, payload, h.denotes hword, ?_⟩
      rw [(parsed_eq_iff h.allows).mpr hdigits]
  · rw [if_neg hmem] at hparse
    rw [asWritten_of_error hparse]
    constructor
    · intro hno
      refine ⟨fun hyes => absurd hyes hmem, fun _ hkey => hno ⟨hname, hkey.1, t, payload, ?_⟩⟩
      exact h.denotes hkey.2
    · rintro hread ⟨-, hkey, t', payload', hdenotes⟩
      exact hread.2 hmem ⟨hkey, (h.denotes_iff.mp hdenotes).2⟩

/-- An item is stored as it is written, or nothing is stored that is not to be, just if the value is read as it is
written. -/
theorem asWritten_iff : AsWritten malloc items name key value ↔ ReadAsWritten malloc name key value := by
  cases hname : validateName (some name) with
  | error e =>
    rw [asWritten_of_error (parseSettingsItemValue_error hname), ReadAsWritten, hname]
    exact iff_of_true (fun h => nomatch h.1) nofun
  | ok u =>
    by_cases hreads : ∃ type t payload, Reads value type t payload
    · obtain ⟨type, t, payload, h⟩ := hreads
      exact h.asWritten_iff_readAsWritten hname
    · have hno : ∀ type t payload, ¬Reads value type t payload := fun type t payload h => hreads ⟨_, _, _, h⟩
      rw [asWritten_of_error ((parseSettingsItemValue_ok hname).trans (parseValue_not_reads hno))]
      refine iff_of_true ?_ fun _ type t payload h => absurd h (hno type t payload)
      rintro ⟨-, -, t, payload, hdenotes⟩
      obtain ⟨type, h, -⟩ := hdenotes.reads
      exact hno type t payload h

end Values

/-- The value `u8!5` of the name `a` with an empty key is stored. -/
theorem not_asWritten : ¬AsWritten (fun _ => true) (fun _ => none) [0x61] [] [0x75, 0x38, 0x21, 0x35] := by
  have hname : validateName (some [0x61]) = .ok () := rfl
  have hreads : Reads [0x75, 0x38, 0x21, 0x35] u8 (.number 1) [0x35] :=
    ⟨⟨[], rfl, nofun⟩, by decide, by decide, by decide⟩
  intro h
  have hread := (hreads.asWritten_iff_readAsWritten hname).mp h
  obtain ⟨hkey, -⟩ := (hread hname u8 _ _ hreads).1 rfl
  have hempty : validateKey (some []) = .error .keyEmpty := rfl
  exact nomatch hempty.symm.trans hkey

end RajNX.SetMitm
