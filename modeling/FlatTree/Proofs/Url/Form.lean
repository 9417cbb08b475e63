import FlatTree.Url.Percent
import FlatTree.Proofs.Buffer.Heap
import FlatTree.Proofs.Text.Split

/-!
# Form fields read back

Whatever text is put into a field of a form, the encoded field has none of the characters
that join fields to a query or a query to a request. So what was joined can be split
again, and each field is read back as it was.

- `Percent.mem_encode`, `Percent.not_mem_formEncode`: what is in an encoded text.
- `Percent.formDecode?`, `Percent.formPairs?`: readers of fields and of queries.
- `Percent.formDecode?_formEncode`: a field is read back.
- `Percent.formPairs?_formQuery`: a query is read back, field by field.
-/

namespace FlatTree.Percent

/-! ## Escapes -/

theorem toNat_ofNat (b : UInt8) : (Char.ofNat b.toNat).toNat = b.toNat := by
  have hb : b.toNat < 256 := b.toNat_lt
  rw [Char.toNat_ofNat, if_pos (.inl (by omega))]

theorem hexValue?_hexDigit : ∀ n < 16, hexValue? (hexDigit n) = some n := by decide

/-- Hexadecimal digits stand as they are. -/
theorem isAlphanumeric_hexDigit : ∀ n < 16, isAlphanumeric (hexDigit n).toNat.toUInt8 := by decide

/-- An escape is a percent sign and hexadecimal digits. -/
theorem mem_escape {b : UInt8} {c : Char} (h : c ∈ escape b) :
    c = '%' ∨ isAlphanumeric c.toNat.toUInt8 := by
  have hb : b.toNat < 256 := b.toNat_lt
  simp only [escape, List.mem_cons, List.not_mem_nil, or_false] at h
  rcases h with rfl | rfl | rfl
  · exact .inl rfl
  · exact .inr (isAlphanumeric_hexDigit _ (by omega))
  · exact .inr (isAlphanumeric_hexDigit _ (by omega))

/-- Encoded text has the bytes that are kept and escapes. -/
theorem mem_encode {keep : UInt8 → Bool} {text : String} {c : Char} (h : c ∈ encode keep text) :
    keep c.toNat.toUInt8 ∨ c = '%' ∨ isAlphanumeric c.toNat.toUInt8 := by
  obtain ⟨b, -, hc⟩ := List.mem_flatMap.mp h
  split at hc
  · next hkeep =>
    rw [List.mem_singleton.mp hc, toNat_ofNat]
    exact .inl (by simpa using hkeep)
  · exact .inr (mem_escape hc)


/-! ## Reading fields back -/

theorem utf8_eq (text : String) : utf8 text = text.toList.flatMap String.utf8EncodeChar := by
  rw [utf8, Heap.toUTF8_eq, List.data_toByteArray]

/-- Only a percent sign starts an escape. -/
theorem decode_cons_of_ne {c : Char} (hc : c ≠ '%') (rest : List Char) :
    decode (c :: rest) = utf8 c.toString ++ decode rest := by
  rw [decode]
  rintro - - - rfl
  exact absurd rfl hc

theorem decode_escape (b : UInt8) (rest : List Char) :
    decode (escape b ++ rest) = b :: decode rest := by
  have hb : b.toNat < 256 := b.toNat_lt
  show decode ('%' :: hexDigit (b.toNat / 16) :: hexDigit (b.toNat % 16) :: rest) = _
  rw [decode, hexValue?_hexDigit _ (by omega), hexValue?_hexDigit _ (by omega)]
  show (16 * (b.toNat / 16) + b.toNat % 16).toUInt8 :: decode rest = _
  rw [Nat.div_add_mod]
  exact congrArg (· :: decode rest) UInt8.ofNat_toNat

/-- In a form field a plus stands for a space. -/
def unplus (c : Char) : Char := if c = '+' then ' ' else c

/-- The text of a form field, if its bytes are one. -/
def formDecode? (field : List Char) : Option String :=
  String.fromUTF8? (decode (field.map unplus)).toByteArray

/-- A byte below 128 is the character with its number. -/
theorem utf8_ofNat {b : UInt8} (hb : b.toNat < 128) : utf8 (Char.ofNat b.toNat).toString = [b] := by
  have hval : (Char.ofNat b.toNat).val.toNat = b.toNat := toNat_ofNat b
  have hchars : (Char.ofNat b.toNat).toString.toList = [Char.ofNat b.toNat] :=
    String.toList_singleton _
  rw [utf8_eq, hchars, List.flatMap_singleton, String.utf8EncodeChar, hval, if_pos (by omega)]
  exact congrArg (fun b => [b]) UInt8.ofNat_toNat

theorem bounds_of_isFormByte : ∀ n < 256, isFormByte n.toUInt8 → n < 128 ∧ n ≠ 37 ∧ n ≠ 43 := by
  decide +kernel

/-- One byte of a form field is read back. -/
theorem decode_formByte (b : UInt8) (rest : List Char) :
    decode ((formByte b).map unplus ++ rest) = b :: decode rest := by
  rw [formByte]
  split
  · next hform =>
    obtain ⟨hlt, hpercent, hplus⟩ := bounds_of_isFormByte b.toNat b.toNat_lt
      (by rwa [Nat.toUInt8_eq, UInt8.ofNat_toNat])
    have hne : ∀ {c : Char}, b.toNat ≠ c.toNat → Char.ofNat b.toNat ≠ c :=
      fun h heq => h (by rw [← heq, toNat_ofNat])
    show decode (unplus (Char.ofNat b.toNat) :: rest) = _
    rw [unplus, if_neg (hne (c := '+') hplus), decode_cons_of_ne (hne (c := '%') hpercent),
      utf8_ofNat hlt]
    rfl
  · split
    · next hspace =>
      subst hspace
      exact decode_cons_of_ne (by decide) rest
    · have hkeep : (escape b).map unplus = escape b := by
        refine (List.map_congr_left fun c hc => if_neg ?_).trans (List.map_id _)
        rintro rfl
        rcases mem_escape hc with h | h <;> cases h
      rw [hkeep, decode_escape]

theorem decode_flatMap_formByte (bytes : List UInt8) :
    decode ((bytes.flatMap formByte).map unplus) = bytes := by
  induction bytes with
  | nil => rfl
  | cons b rest ih => rw [List.flatMap_cons, List.map_append, decode_formByte, ih]

/-- **A form field is read back**, whatever its text is. -/
theorem formDecode?_formEncode (text : String) : formDecode? (formEncode text) = some text := by
  rw [formDecode?, formEncode, decode_flatMap_formByte, Heap.fromUTF8?_eq_some, utf8_eq,
    Heap.toUTF8_eq]

/-! ## Reading queries back -/

/-- A character that is in no form field. -/
def IsSeparator (c : Char) : Prop := isFormByte c.toNat.toUInt8 = false ∧ c ≠ '+' ∧ c ≠ '%'

instance : DecidablePred IsSeparator := fun _ => inferInstanceAs (Decidable (_ ∧ _))

theorem isFormByte_of_isAlphanumeric {b : UInt8} (h : isAlphanumeric b) : isFormByte b := by
  simp only [isFormByte, h, Bool.true_or]

theorem not_mem_formEncode {c : Char} (hc : IsSeparator c) (text : String) :
    c ∉ formEncode text := by
  obtain ⟨hform, hplus, hpercent⟩ := hc
  intro h
  obtain ⟨b, -, hb⟩ := List.mem_flatMap.mp h
  rw [formByte] at hb
  split at hb
  · next hkeep =>
    rw [List.mem_singleton.mp hb, toNat_ofNat, Nat.toUInt8_eq, UInt8.ofNat_toNat, hkeep] at hform
    cases hform
  · split at hb
    · exact hplus (List.mem_singleton.mp hb)
    · rcases mem_escape hb with heq | halpha
      · exact hpercent heq
      · rw [isFormByte_of_isAlphanumeric halpha] at hform
        cases hform

/-- A name and a value on either side of an equals sign. -/
def formPair? (part : List Char) : Option (String × String) :=
  match splitOn '=' part with
  | [name, value] => do return (← formDecode? name, ← formDecode? value)
  | _ => none

/-- The named fields of a query, between ampersands. -/
def formPairs? (query : List Char) : Option (List (String × String)) :=
  (splitOn '&' query).mapM formPair?

theorem formPair?_append (name value : String) :
    formPair? (formEncode name ++ '=' :: formEncode value) = some (name, value) := by
  have hsplit : splitOn '=' (formEncode name ++ '=' :: formEncode value) =
      [formEncode name, formEncode value] := by
    rw [splitOn_append_cons _ (not_mem_formEncode (by decide) name),
      splitOn_eq_singleton (not_mem_formEncode (by decide) value)]
  rw [formPair?, hsplit]
  show (formDecode? (formEncode name) >>= fun name =>
    formDecode? (formEncode value) >>= fun value => some (name, value)) = _
  rw [formDecode?_formEncode, formDecode?_formEncode]
  rfl

/-- What is in neither field of a pair is not in the pair. -/
theorem not_mem_pair {c : Char} (hc : IsSeparator c) (hequals : c ≠ '=') (name value : String) :
    c ∉ formEncode name ++ '=' :: formEncode value := by
  rw [List.mem_append, List.mem_cons, not_or, not_or]
  exact ⟨not_mem_formEncode hc name, hequals, not_mem_formEncode hc value⟩

theorem formQuery_cons (pair next : String × String) (rest : List (String × String)) :
    formQuery (pair :: next :: rest) =
      (formEncode pair.1 ++ '=' :: formEncode pair.2) ++ '&' :: formQuery (next :: rest) := by
  rw [formQuery, List.append_assoc]
  · rfl
  · exact List.cons_ne_nil next rest

/-- **Named fields are read back from a query**, whatever their texts are. -/
theorem formPairs?_formQuery :
    ∀ {pairs : List (String × String)}, pairs ≠ [] → formPairs? (formQuery pairs) = some pairs
  | [], h => absurd rfl h
  | [(name, value)], _ => by
    rw [formPairs?, formQuery, splitOn_eq_singleton (not_mem_pair (by decide) (by decide) _ _),
      List.mapM_cons, formPair?_append]
    rfl
  | (name, value) :: next :: rest, _ => by
    have hrest := formPairs?_formQuery (List.cons_ne_nil next rest)
    rw [formPairs?] at hrest
    rw [formPairs?, formQuery_cons,
      splitOn_append_cons _ (not_mem_pair (by decide) (by decide) _ _), List.mapM_cons,
      formPair?_append, hrest]
    rfl

theorem formQuery_ne_nil {pairs : List (String × String)} (h : pairs ≠ []) :
    formQuery pairs ≠ [] := by
  intro hnil
  have hread := formPairs?_formQuery h
  rw [hnil] at hread
  cases hread

theorem not_mem_formQuery {c : Char} (hc : IsSeparator c) (hequals : c ≠ '=') (hand : c ≠ '&') :
    ∀ pairs : List (String × String), c ∉ formQuery pairs
  | [] => List.not_mem_nil
  | [(name, value)] => not_mem_pair hc hequals name value
  | (name, value) :: next :: rest => by
    rw [formQuery_cons, List.mem_append, List.mem_cons, not_or, not_or]
    exact ⟨not_mem_pair hc hequals name value, hand,
      not_mem_formQuery hc hequals hand (next :: rest)⟩

end FlatTree.Percent
