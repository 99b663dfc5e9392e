import RagIngestion.Python.Text
import RagIngestion.Library.PrefixCodes

/-! `bytes.decode()`: strict UTF-8, which refuses overlong forms, surrogates and cut sequences. -/
namespace RagIngestion.Python
open RagIngestion.Library

/-- Of a first byte: how many bytes follow, its own bits, and the least code point of the form. -/
def utf8Head (b : UInt8) : Option (ℕ × ℕ × ℕ) :=
  if b.toNat<0x80 then some (0,b.toNat,0)
  else if b.toNat/32=6 then some (1,b.toNat%32,0x80)
  else if b.toNat/16=14 then some (2,b.toNat%16,0x800)
  else if b.toNat/8=30 then some (3,b.toNat%8,0x10000)
  else none

/-- Six more bits from each of the bytes that follow. -/
def utf8Tail : ℕ → ℕ → Bytes → Option (ℕ × Bytes)
  | 0, n, bytes => some (n,bytes)
  | _+1, _, [] => none
  | k+1, n, b::bytes => if b.toNat/64=2 then utf8Tail k (64*n+b.toNat%64) bytes else none

/-- The code point at the front. -/
def decodeChar : Bytes → Option (CodePoint × Bytes)
  | [] => none
  | b::bytes =>
    (utf8Head b).bind (fun head => (utf8Tail head.1 head.2.1 bytes).bind (fun p =>
      if h : p.1<0x110000 then
        if head.2.2 ≤ p.1 ∧ isSurrogate ⟨p.1,h⟩=false then some (⟨p.1,h⟩,p.2) else none
      else none))

/-- As many characters as there is fuel for. -/
def decodeFrom : ℕ → Bytes → Option PyStr
  | _, [] => some []
  | 0, _ => none
  | k+1, bytes => (decodeChar bytes).bind (fun p => (decodeFrom k p.2).map (fun s => p.1::s))

/-- `bytes.decode()`; `none` is its `UnicodeDecodeError`. -/
def decode (bytes : Bytes) : Option PyStr := decodeFrom bytes.length bytes

/-- An encoded character is read back, whatever follows it. -/
theorem decodeChar_utf8 {c : CodePoint} (hc : isSurrogate c=false) (rest : Bytes) :
    decodeChar (utf8 c ++ rest)=some (c,rest) := by
  have hlt := c.isLt
  have hfound : ∀ {b : UInt8} {bytes : Bytes} {k n least : ℕ}, utf8Head b=some (k,n,least) →
      utf8Tail k n bytes=some (c.val,rest) → least ≤ c.val →
      decodeChar (b::bytes)=some (c,rest) := by
    intro b bytes k n least hhead htail hleast
    simp only [decodeChar,hhead,Option.bind_some,htail,dif_pos hlt]
    rw [if_pos ⟨hleast,hc⟩]
  unfold utf8
  dsimp only
  split_ifs with h1 h2 h3
  · refine hfound (k := 0) (n := c.val) ?_ rfl (Nat.zero_le _)
    rw [utf8Head,Codec.toNat_toUInt8 (by omega),if_pos h1]
  · refine hfound (k := 1) (n := c.val/64) ?_ ?_ (Nat.le_of_not_lt h1)
    · rw [utf8Head,Codec.toNat_toUInt8 (by omega),if_neg (by omega),if_pos (by omega)]
      simp only [Option.some.injEq,Prod.mk.injEq,and_true,true_and]
      omega
    · change utf8Tail 1 (c.val/64) ((0x80+c.val%64).toUInt8::rest)=some (c.val,rest)
      simp only [utf8Tail]
      rw [Codec.toNat_toUInt8 (by omega),if_pos (by omega)]
      simp only [Option.some.injEq,Prod.mk.injEq,and_true]
      omega
  · refine hfound (k := 2) (n := c.val/4096) ?_ ?_ (Nat.le_of_not_lt h2)
    · rw [utf8Head,Codec.toNat_toUInt8 (by omega),if_neg (by omega),if_neg (by omega),if_pos (by omega)]
      simp only [Option.some.injEq,Prod.mk.injEq,and_true,true_and]
      omega
    · change utf8Tail 2 (c.val/4096) ((0x80+c.val/64%64).toUInt8::(0x80+c.val%64).toUInt8::rest)=
        some (c.val,rest)
      simp only [utf8Tail]
      rw [Codec.toNat_toUInt8 (by omega),if_pos (by omega),Codec.toNat_toUInt8 (by omega),if_pos (by omega)]
      simp only [Option.some.injEq,Prod.mk.injEq,and_true]
      omega
  · refine hfound (k := 3) (n := c.val/262144) ?_ ?_ (Nat.le_of_not_lt h3)
    · rw [utf8Head,Codec.toNat_toUInt8 (by omega),if_neg (by omega),if_neg (by omega),if_neg (by omega),
        if_pos (by omega)]
      simp only [Option.some.injEq,Prod.mk.injEq,and_true,true_and]
      omega
    · change utf8Tail 3 (c.val/262144) ((0x80+c.val/4096%64).toUInt8::(0x80+c.val/64%64).toUInt8::
        (0x80+c.val%64).toUInt8::rest)=some (c.val,rest)
      simp only [utf8Tail]
      rw [Codec.toNat_toUInt8 (by omega),if_pos (by omega),Codec.toNat_toUInt8 (by omega),if_pos (by omega),
        Codec.toNat_toUInt8 (by omega),if_pos (by omega)]
      simp only [Option.some.injEq,Prod.mk.injEq,and_true]
      omega

lemma utf8_ne_nil (c : CodePoint) : utf8 c≠[] := by
  unfold utf8
  dsimp only
  split_ifs <;> simp

lemma length_le_utf8 (s : PyStr) : s.length ≤ (s.flatMap utf8).length := by
  induction s with
  | nil => simp
  | cons c s ih =>
    have hc := List.length_pos_iff.mpr (utf8_ne_nil c)
    simp only [List.flatMap_cons,List.length_append,List.length_cons]
    omega

theorem decodeFrom_utf8 {s : PyStr} (hs : Scalar s) {k : ℕ} (hk : s.length ≤ k) :
    decodeFrom k (s.flatMap utf8)=some s := by
  induction s generalizing k with
  | nil => cases k <;> rfl
  | cons c s ih =>
    obtain ⟨hc,hs⟩ := (scalar_cons c s).mp hs
    cases k with
    | zero => simp at hk
    | succ k =>
      have hchar := decodeChar_utf8 hc (s.flatMap utf8)
      have hrest := ih hs (k := k) (by simpa using hk)
      rw [List.flatMap_cons]
      cases hbytes : utf8 c ++ s.flatMap utf8 with
      | nil => exact absurd (List.append_eq_nil_iff.mp hbytes).1 (utf8_ne_nil c)
      | cons b bytes =>
        rw [hbytes] at hchar
        simp only [decodeFrom,hchar,Option.bind_some,hrest,Option.map_some]

/-- Text that could be encoded is read back. -/
theorem decode_encode {s : PyStr} {bytes : Bytes} (h : encode s=some bytes) : decode bytes=some s := by
  have hs : Scalar s := (encode_isSome_iff s).mp (by rw [h]; rfl)
  unfold encode at h
  split at h
  · cases h
  · cases h
    exact decodeFrom_utf8 hs (length_le_utf8 s)

/-- Text after the number of its bytes. -/
def text : Codec PyStr := Codec.sized.via encode decode

theorem text_faithful : text.Faithful :=
  Codec.sized_faithful.via (fun _ _ h => decode_encode h)

theorem text_write {s : PyStr} (hs : Scalar s) : (text.write s).isSome=true := by
  obtain ⟨bytes,hbytes⟩ := Option.isSome_iff_exists.mp ((encode_isSome_iff s).mpr hs)
  simp [text,Codec.via,hbytes,Codec.sized,Codec.integer_write]

end RagIngestion.Python
