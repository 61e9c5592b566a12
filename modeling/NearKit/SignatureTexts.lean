import NearKit.SignedMessages

/-!
# Texts of signatures

A signature of Ed25519 is read from base64, from prefixed base58 and from bare base58, and
base64 is tried first. Every symbol of base58 is one of base64. The padding tells the two
apart: 64 bytes leave one byte over, so their base64 ends in pads, and base58 has none.
-/
namespace NearKit
open Borsh

/-! ## The symbols of a text -/

namespace Base64

private theorem value_isSome {n : ℕ} (h : n < 64) : (value (symbol n)).isSome := by
  rw [value_symbol h]
  rfl

theorem isSome_or_pad (bs : Bytes) : ∀ c ∈ encodeChars bs, (value c).isSome ∨ c = '=' := by
  fun_induction encodeChars bs with
  | case1 => exact List.forall_mem_nil _
  | case2 a =>
    have ha := UInt8.toNat_lt a
    simp only [List.forall_mem_cons]
    exact ⟨.inl (value_isSome (by omega)), .inl (value_isSome (by omega)), .inr trivial, .inr trivial,
      List.forall_mem_nil _⟩
  | case3 a b =>
    have ha := UInt8.toNat_lt a
    have hb := UInt8.toNat_lt b
    simp only [List.forall_mem_cons]
    exact ⟨.inl (value_isSome (by omega)), .inl (value_isSome (by omega)),
      .inl (value_isSome (by omega)), .inr trivial, List.forall_mem_nil _⟩
  | case4 a b c rest ih =>
    have ha := UInt8.toNat_lt a
    have hb := UInt8.toNat_lt b
    have hc := UInt8.toNat_lt c
    simp only [List.forall_mem_cons]
    exact ⟨.inl (value_isSome (by omega)), .inl (value_isSome (by omega)),
      .inl (value_isSome (by omega)), .inl (value_isSome (by omega)), ih⟩

theorem pad_mem (bs : Bytes) (h : bs.length % 3 ≠ 0) : '=' ∈ encodeChars bs := by
  fun_induction encodeChars bs with
  | case1 => exact absurd rfl h
  | case2 a => simp
  | case3 a b => simp
  | case4 a b c rest ih =>
    simp only [List.length_cons] at h
    have hrest : rest.length % 3 ≠ 0 := by omega
    simp [ih hrest]

/-- A text with a character of another alphabet is not decoded. -/
theorem decode_eq_none {s : String} {c : Char} (hc : c ∈ s.toList) (hvalue : value c = none)
    (hpad : c ≠ '=') : decode s = none := by
  rw [Option.eq_none_iff_forall_ne_some]
  intro bs h
  have hs := decode_eq_some.mp h
  rw [← hs, encode, String.toList_ofList] at hc
  rcases isSome_or_pad bs c hc with hsome | hc
  · rw [hvalue] at hsome
    cases hsome
  · exact hpad hc

end Base64

namespace Base58

private theorem symbol_mem {n : ℕ} (h : n < 58) : symbol n ∈ alphabet := by
  unfold symbol
  rw [List.getD_eq_getElem _ _ h]
  exact List.getElem_mem h

private theorem mem_alphabet (bs : Bytes) : ∀ c ∈ (encode bs).toList, c ∈ alphabet := by
  intro c hc
  unfold encode at hc
  rw [String.toList_ofList] at hc
  obtain ⟨d, hd, rfl⟩ := List.mem_map.mp hc
  exact symbol_mem (Digits.recode_lt (by norm_num) d hd)

theorem not_mem_encode {c : Char} (h : c ∉ alphabet) (bs : Bytes) : c ∉ (encode bs).toList :=
  fun hc => h (mem_alphabet bs c hc)

end Base58

/-! ## Where the formats differ -/

theorem stripPrefix_append (pre s : String) : stripPrefix pre (pre ++ s) = some s := by
  unfold stripPrefix
  rw [String.toList_append, if_pos (List.prefix_append _ _), List.drop_left, String.ofList_toList]

private theorem stripPrefix_eq_none {pre s : String} {c : Char} (hpre : c ∈ pre.toList)
    (hs : c ∉ s.toList) : stripPrefix pre s = none :=
  if_neg fun h => hs (h.subset hpre)

/-- No text is both 64 bytes in base64 and any bytes in base58. -/
theorem base64_ne_base58 {bytes : Bytes} (h : bytes.length = 64) (other : Bytes) :
    Base64.encode bytes ≠ Base58.encode other := by
  intro heq
  have hpad : '=' ∈ (Base64.encode bytes).toList := by
    unfold Base64.encode
    rw [String.toList_ofList]
    exact Base64.pad_mem bytes (by rw [h]; decide)
  rw [heq] at hpad
  exact Base58.not_mem_encode (by decide) other hpad

private theorem ed25519Or_of_ne {bytes : Bytes} (h : bytes.length ≠ 64)
    (next : Except SerdeError Signature) : ed25519Or bytes next = next := dif_neg h

theorem ed25519Or_val (signature : ByteArr 64) (next : Except SerdeError Signature) :
    ed25519Or signature.val next = .ok (.ed25519 signature) := dif_pos signature.2

/-- A text that is not 64 bytes in base64 is left to the next formats. -/
theorem deserialize_of_not_base64 {s : String}
    (h : ∀ bytes, Base64.decode s = some bytes → bytes.length ≠ 64) :
    deserializeSignatureFlexible (.string s) = deserializePrefixed s := by
  have hstring : (Json.string s).asString = .ok s := rfl
  cases hdecode : Base64.decode s with
  | none => simp only [deserializeSignatureFlexible, hstring, hdecode, bind, Except.bind]
  | some bytes =>
    simp only [deserializeSignatureFlexible, hstring, hdecode, bind, Except.bind]
    exact ed25519Or_of_ne (h bytes hdecode) _

/-! ## Every format gives the signature back -/

private theorem deserialize_prefixed_base58 (signature : ByteArr 64) :
    deserializeSignatureFlexible (.string ("ed25519:" ++ Base58.encode signature.val)) =
      .ok (.ed25519 signature) := by
  have hcolon : ':' ∈ ("ed25519:" ++ Base58.encode signature.val).toList := by
    rw [String.toList_append]
    exact List.mem_append_left _ (by decide)
  have hnone : Base64.decode ("ed25519:" ++ Base58.encode signature.val) = none :=
    Base64.decode_eq_none hcolon rfl (by decide)
  rw [deserialize_of_not_base64 (by rw [hnone]; nofun)]
  unfold deserializePrefixed
  rw [stripPrefix_append]
  simp only
  rw [Base58.decode_encode]
  exact ed25519Or_val signature _

private theorem deserialize_plain_base58 (signature : ByteArr 64) :
    deserializeSignatureFlexible (.string (Base58.encode signature.val)) =
      .ok (.ed25519 signature) := by
  have hbase64 : ∀ bytes, Base64.decode (Base58.encode signature.val) = some bytes →
      bytes.length ≠ 64 := by
    intro bytes h hlen
    exact base64_ne_base58 hlen signature.val (Base64.decode_eq_some.mp h)
  have hstrip : stripPrefix "ed25519:" (Base58.encode signature.val) = none :=
    stripPrefix_eq_none (c := ':') (by decide) (Base58.not_mem_encode (by decide) _)
  rw [deserialize_of_not_base64 hbase64]
  unfold deserializePrefixed
  rw [hstrip]
  simp only
  unfold deserializePlainBase58
  rw [Base58.decode_encode]
  exact ed25519Or_val signature _

/-- The three texts of a signature are read as that signature, and the bare one is no other
signature's base64. -/
theorem signature_texts_unambiguous (signature : ByteArr 64) :
    deserializeSignatureFlexible (serializeSignatureBase64 (.ed25519 signature)) =
        .ok (.ed25519 signature) ∧
      deserializeSignatureFlexible (.string ("ed25519:" ++ Base58.encode signature.val)) =
        .ok (.ed25519 signature) ∧
      deserializeSignatureFlexible (.string (Base58.encode signature.val)) =
        .ok (.ed25519 signature) ∧
      ∀ other : ByteArr 64,
        Base64.decode (Base58.encode signature.val) ≠ some other.val := by
  refine ⟨deserialize_serialize_ed25519 signature, deserialize_prefixed_base58 signature,
    deserialize_plain_base58 signature, ?_⟩
  intro other h
  exact base64_ne_base58 other.2 signature.val (Base64.decode_eq_some.mp h)

end NearKit
