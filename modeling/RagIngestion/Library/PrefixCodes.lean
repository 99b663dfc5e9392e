import Mathlib.Data.List.Basic
import Mathlib.Tactic

/-! Prefix codes over bytes: numbers in groups of seven bits, strings after their length, choices
after their index, and records field by field. Each combinator keeps what was written readable. -/
namespace RagIngestion.Library

/-- Writing may refuse a value; reading takes a value off the front. -/
structure Codec (α : Type*) where
  write : α → Option (List UInt8)
  read : List UInt8 → Option (α × List UInt8)

namespace Codec
variable {α β : Type*}

/-- What was written is read back, whatever follows it. -/
def Faithful (c : Codec α) : Prop :=
  ∀ a bytes, c.write a=some bytes → ∀ rest, c.read (bytes ++ rest)=some (a,rest)

/-- Values that stand for values of another code. -/
def via (c : Codec α) (into : β → Option α) (back : α → Option β) : Codec β where
  write b := (into b).bind c.write
  read bytes := (c.read bytes).bind (fun p => (back p.1).map (fun b => (b,p.2)))

theorem Faithful.via {c : Codec α} (h : c.Faithful) {into : β → Option α} {back : α → Option β}
    (hback : ∀ a b, into b=some a → back a=some b) : (c.via into back).Faithful := by
  intro b bytes hw rest
  obtain ⟨a,ha,hw⟩ := Option.bind_eq_some_iff.mp hw
  simp only [Codec.via,h a bytes hw rest,Option.bind_some,hback a b ha,Option.map_some]

/-- Seven bits in each byte, lowest first; every byte but the last has its high bit set. -/
def varintBytes (n : ℕ) : List UInt8 :=
  if n<128 then [n.toUInt8] else (n%128+128).toUInt8::varintBytes (n/128)

def readVarint : List UInt8 → Option (ℕ × List UInt8)
  | [] => none
  | b::bytes =>
    if b.toNat<128 then some (b.toNat,bytes)
    else (readVarint bytes).map (fun p => (b.toNat-128+128*p.1,p.2))

def varint : Codec ℕ := ⟨fun n => some (varintBytes n),readVarint⟩

lemma toNat_toUInt8 {n : ℕ} (h : n<256) : n.toUInt8.toNat=n := by
  simp [Nat.mod_eq_of_lt h]

theorem varint_faithful : varint.Faithful := by
  intro n bytes hw rest
  cases Option.some.inj hw
  change readVarint (varintBytes n ++ rest)=some (n,rest)
  clear hw
  fun_induction varintBytes n with
  | case1 n hn =>
    rw [List.singleton_append,readVarint,toNat_toUInt8 (by omega),if_pos hn]
  | case2 n hn ih =>
    rw [List.cons_append,readVarint,toNat_toUInt8 (by omega),if_neg (by omega),ih]
    simp only [Option.map_some,Option.some.injEq,Prod.mk.injEq,and_true]
    omega

/-- Numbers near zero get small codes, whatever their sign. -/
def zigzag (i : ℤ) : ℕ := if 0 ≤ i then 2*i.toNat else 2*(-i).toNat-1

def unzigzag (n : ℕ) : ℤ := if n%2=0 then (n/2 : ℕ) else -((n/2 : ℕ)+1)

theorem unzigzag_zigzag (i : ℤ) : unzigzag (zigzag i)=i := by
  unfold zigzag unzigzag
  split_ifs with hi heven heven
  · omega
  · omega
  · omega
  · omega

def integer : Codec ℤ := varint.via (fun i => some (zigzag i)) (fun n => some (unzigzag n))

theorem integer_faithful : integer.Faithful := by
  refine varint_faithful.via ?_
  intro n i h
  cases h
  rw [unzigzag_zigzag]

theorem integer_write (i : ℤ) : integer.write i=some (varintBytes (zigzag i)) := rfl

/-- A number that a 64-bit word holds. -/
def long : Codec ℤ := integer.via (fun i => if -2^63 ≤ i ∧ i<2^63 then some i else none) some

theorem long_faithful : long.Faithful := by
  refine integer_faithful.via ?_
  intro i j h
  split at h
  · cases h
    rfl
  · cases h

theorem long_write {i : ℤ} (hlow : -2^63 ≤ i) (hhigh : i<2^63) :
    long.write i=some (varintBytes (zigzag i)) := by
  simp only [long,Codec.via,if_pos (And.intro hlow hhigh),Option.bind_some,integer_write]

/-- Bytes after their number. -/
def sized : Codec (List UInt8) where
  write content := (integer.write content.length).map (fun size => size ++ content)
  read bytes := (integer.read bytes).bind (fun p =>
    if 0 ≤ p.1 ∧ p.1.toNat ≤ p.2.length then some (p.2.take p.1.toNat,p.2.drop p.1.toNat) else none)

theorem sized_faithful : sized.Faithful := by
  intro content bytes hw rest
  simp only [sized] at hw
  obtain ⟨size,hsize,rfl⟩ := Option.map_eq_some_iff.mp hw
  have hread := integer_faithful _ size hsize (content ++ rest)
  change (integer.read (size ++ content ++ rest)).bind _=some (content,rest)
  rw [List.append_assoc,hread,Option.bind_some,Int.toNat_natCast,if_pos ⟨by omega,by simp⟩,
    List.take_left,List.drop_left]

/-- The first of several codes that accepts a value, after its index. A reader that indexes a Python
list also takes a negative index, from the end; this one refuses it. -/
def choice (branches : List (Codec α)) : Codec α where
  write a := branches.zipIdx.findSome? (fun b =>
    (b.1.write a).bind (fun bytes => (integer.write b.2).map (fun index => index ++ bytes)))
  read bytes := (integer.read bytes).bind (fun p =>
    if 0 ≤ p.1 then branches[p.1.toNat]?.bind (fun c => c.read p.2) else none)

theorem choice_faithful {branches : List (Codec α)} (h : ∀ c ∈ branches, c.Faithful) :
    (choice branches).Faithful := by
  intro a bytes hw rest
  obtain ⟨⟨c,i⟩,hmem,hw⟩ := List.exists_of_findSome?_eq_some hw
  obtain ⟨body,hbody,hw⟩ := Option.bind_eq_some_iff.mp hw
  obtain ⟨index,hindex,rfl⟩ := Option.map_eq_some_iff.mp hw
  have hc : branches[i]?=some c := List.mem_zipIdx_iff_getElem?.mp hmem
  have hread := h c (List.mem_of_getElem? hc) a body hbody rest
  have hindexed := integer_faithful _ index hindex (body ++ rest)
  change (integer.read (index ++ body ++ rest)).bind _=some (a,rest)
  rw [List.append_assoc,hindexed,Option.bind_some,if_pos (by omega),Int.toNat_natCast,hc,
    Option.bind_some,hread]

end Codec

section
variable {κ α : Type*}

/-- A field of a record, with the value it takes where a dictionary has no entry for it. -/
structure Field (κ α : Type*) where
  name : κ
  codec : Codec α
  missing : α

variable [BEq κ]

def Field.value (f : Field κ α) (items : List (κ × α)) : α := (items.lookup f.name).getD f.missing

/-- The values of the fields, one after another. -/
def writeFields (items : List (κ × α)) : List (Field κ α) → Option (List UInt8)
  | [] => some []
  | f::fields => (f.codec.write (f.value items)).bind (fun bytes =>
      (writeFields items fields).map (fun more => bytes ++ more))

def readFields : List (Field κ α) → List UInt8 → Option (List (κ × α) × List UInt8)
  | [], bytes => some ([],bytes)
  | f::fields, bytes => (f.codec.read bytes).bind (fun p =>
      (readFields fields p.2).map (fun q => ((f.name,p.1)::q.1,q.2)))

/-- A written record is read as the entries of its fields. -/
theorem readFields_writeFields {fields : List (Field κ α)} {items : List (κ × α)}
    (hfaithful : ∀ f ∈ fields, f.codec.Faithful) {bytes : List UInt8}
    (hw : writeFields items fields=some bytes) (rest : List UInt8) :
    readFields fields (bytes ++ rest)=some (fields.map (fun f => (f.name,f.value items)),rest) := by
  induction fields generalizing bytes with
  | nil =>
    cases hw
    rfl
  | cons f fields ih =>
    obtain ⟨first,hfirst,hw⟩ := Option.bind_eq_some_iff.mp hw
    obtain ⟨more,hmore,rfl⟩ := Option.map_eq_some_iff.mp hw
    have hread := hfaithful f (by simp) _ first hfirst (more ++ rest)
    have hrest := ih (fun g hg => hfaithful g (by simp [hg])) hmore
    rw [List.append_assoc,readFields,hread]
    simp only [Option.bind_some,hrest,Option.map_some,List.map_cons]

/-- A record can be written when every field accepts its value. -/
theorem writeFields_isSome {fields : List (Field κ α)} {items : List (κ × α)}
    (h : ∀ f ∈ fields, (f.codec.write (f.value items)).isSome=true) :
    (writeFields items fields).isSome=true := by
  induction fields with
  | nil => rfl
  | cons f fields ih =>
    obtain ⟨bytes,hbytes⟩ := Option.isSome_iff_exists.mp (h f (by simp))
    obtain ⟨more,hmore⟩ := Option.isSome_iff_exists.mp (ih (fun g hg => h g (by simp [hg])))
    simp [writeFields,hbytes,hmore]

/-- Only the values of the fields are written. -/
theorem writeFields_congr {fields : List (Field κ α)} {items stored : List (κ × α)}
    (h : ∀ f ∈ fields, f.value stored=f.value items) :
    writeFields stored fields=writeFields items fields := by
  induction fields with
  | nil => rfl
  | cons f fields ih =>
    rw [List.forall_mem_cons] at h
    rw [writeFields,writeFields,h.1,ih h.2]

/-- A dictionary with each key once has the values of its entries. -/
theorem lookup_of_mem [LawfulBEq κ] {items : List (κ × α)} (hkeys : (items.map Prod.fst).Nodup)
    {key : κ} {value : α} (h : (key,value) ∈ items) : items.lookup key=some value := by
  induction items with
  | nil => cases h
  | cons entry items ih =>
    rw [List.map_cons,List.nodup_cons] at hkeys
    cases List.mem_cons.mp h with
    | inl h => rw [← h,List.lookup_cons_self]
    | inr h =>
      have hne : (key==entry.1)=false := by
        rw [beq_eq_false_iff_ne]
        rintro rfl
        exact hkeys.1 (List.mem_map.mpr ⟨_,h,rfl⟩)
      rw [List.lookup_cons,hne]
      exact ih hkeys.2 h

/-- The fields of a record take exactly the entries that are named after them, in their order. -/
theorem fields_eq_items {fields : List (Field κ α)} {items stored : List (κ × α)}
    (hnames : fields.map Field.name=items.map Prod.fst)
    (hstored : ∀ entry ∈ items, stored.lookup entry.1=some entry.2) :
    fields.map (fun f => (f.name,f.value stored))=items := by
  induction fields generalizing items with
  | nil => rw [List.map_nil,List.map_eq_nil_iff.mp hnames.symm]
  | cons f fields ih =>
    cases items with
    | nil => cases hnames
    | cons entry items =>
      obtain ⟨hname,hnames⟩ := List.cons.inj hnames
      have hvalue : f.value stored=entry.2 := by
        rw [Field.value,hname,hstored entry (by simp),Option.getD_some]
      rw [List.map_cons,hvalue,hname,ih hnames (fun e he => hstored e (by simp [he]))]

/-- The order of a dictionary's entries does not matter. -/
theorem lookup_of_perm [LawfulBEq κ] {items stored : List (κ × α)}
    (hkeys : (items.map Prod.fst).Nodup) (hperm : stored.Perm items) :
    ∀ entry ∈ items, stored.lookup entry.1=some entry.2 := fun _ hentry =>
  lookup_of_mem ((hperm.map Prod.fst).nodup_iff.mpr hkeys) (hperm.mem_iff.mpr hentry)

end
end RagIngestion.Library
