import RagIngestion.Python.Loads

/-! JSON texts: a value is written with any white space, any escapes and any digits that the
grammar allows, but a lone surrogate is never written as an escape. `json.loads` reads each of
them, those of `json.dumps` among them. -/
namespace RagIngestion.Python

def Blank (s : PyStr) : Prop := ∀ c ∈ s, isJsonSpace c=true

inductive CharText : CodePoint → PyStr → Prop
  | plain {c : CodePoint} (hc : 32 ≤ c.val) (hquote : c≠34) (hslash : c≠92) : CharText c [c]
  | short {c e : CodePoint} (h : (c,e) ∈ backslash) : CharText c [92,e]
  | unit {c : CodePoint} {ds : PyStr} (hc : isSurrogate c=false) (h : scanUnit ds=some (c.val,[])) :
    CharText c (92::117::ds)
  | pair {high low : ℕ} {ds es : PyStr} (hhigh : 0xD800 ≤ high ∧ high ≤ 0xDBFF)
    (hlow : 0xDC00 ≤ low ∧ low ≤ 0xDFFF) (hds : scanUnit ds=some (high,[]))
    (hes : scanUnit es=some (low,[])) : CharText (ofUnits high low) (92::117::(ds ++ 92::117::es))

inductive StringText : PyStr → PyStr → Prop
  | nil : StringText [] []
  | cons {c : CodePoint} {t s ts : PyStr} (h : CharText c t) (hs : StringText s ts) :
    StringText (c::s) (t ++ ts)

/-- A run of digits, at least one. -/
def Digits (ds : PyStr) : Prop := ds≠[] ∧ ∀ d ∈ ds, isDigit d=true

structure NumberText (sign digits fraction exponent : PyStr) : Prop where
  sign : sign=[] ∨ sign=[45]
  digits : digits=[48] ∨ Digits digits ∧ digits.head?≠some 48
  fraction : fraction=[] ∨ ∃ ds, Digits ds ∧ fraction=46::ds
  exponent : exponent=[] ∨ ∃ e sign ds, e ∈ ([101,69] : List CodePoint) ∧
    sign ∈ ([[],[43],[45]] : List PyStr) ∧ Digits ds ∧ exponent=e::(sign ++ ds)

/-- What a text can be of: a value, or the rest of an array or of an object. -/
inductive Part
  | value (v : Json)
  | elements (xs : List Json)
  | members (items : List (PyStr × Json))

inductive Written (decimal : PyStr → String) : Part → PyStr → Prop
  | constant {v : Json} {text : PyStr} (h : (text,v) ∈ jsonConstants) : Written decimal (.value v) text
  | number {sign digits fraction exponent : PyStr} (h : NumberText sign digits fraction exponent) :
    Written decimal (.value (numberValue decimal sign digits fraction exponent))
      (sign ++ digits ++ fraction ++ exponent)
  | string {s text : PyStr} (h : StringText s text) :
    Written decimal (.value (.str s)) (34::(text ++ [34]))
  | emptyArray {gap : PyStr} (hgap : Blank gap) : Written decimal (.value (.list [])) (91::(gap ++ [93]))
  | array {xs : List Json} {gap text : PyStr} (hgap : Blank gap) (h : Written decimal (.elements xs) text) :
    Written decimal (.value (.list xs)) (91::(gap ++ text))
  | emptyObject {gap : PyStr} (hgap : Blank gap) :
    Written decimal (.value (.dict [])) (123::(gap ++ [125]))
  | object {items : List (PyStr × Json)} {gap text : PyStr} (hgap : Blank gap)
    (h : Written decimal (.members items) text) :
    Written decimal (.value (.dict (Json.ofItems items))) (123::(gap ++ text))
  | lastElement {x : Json} {text gap : PyStr} (h : Written decimal (.value x) text) (hgap : Blank gap) :
    Written decimal (.elements [x]) (text ++ (gap ++ [93]))
  | nextElement {x : Json} {xs : List Json} {text gap gap' more : PyStr}
    (h : Written decimal (.value x) text) (hgap : Blank gap) (hgap' : Blank gap')
    (hmore : Written decimal (.elements xs) more) :
    Written decimal (.elements (x::xs)) (text ++ (gap ++ 44::(gap' ++ more)))
  | lastMember {k key : PyStr} {x : Json} {text before after gap : PyStr} (hk : StringText k key)
    (hbefore : Blank before) (hafter : Blank after) (h : Written decimal (.value x) text)
    (hgap : Blank gap) :
    Written decimal (.members [(k,x)])
      (34::(key ++ 34::(before ++ 58::(after ++ (text ++ (gap ++ [125]))))))
  | nextMember {k key : PyStr} {x : Json} {items : List (PyStr × Json)}
    {text before after gap gap' more : PyStr} (hk : StringText k key) (hbefore : Blank before)
    (hafter : Blank after) (h : Written decimal (.value x) text) (hgap : Blank gap)
    (hgap' : Blank gap') (hmore : Written decimal (.members items) more) :
    Written decimal (.members ((k,x)::items))
      (34::(key ++ 34::(before ++ 58::(after ++ (text ++ (gap ++ 44::(gap' ++ more)))))))

/-! The scanner reads every text of a value. -/

lemma lstrip_blank {gap : PyStr} (hgap : Blank gap) : lstrip isJsonSpace gap=[] := by
  rw [lstrip,List.dropWhile_eq_nil_iff]
  exact hgap

lemma lstrip_gap {gap : PyStr} (hgap : Blank gap) {c : CodePoint} (hc : isJsonSpace c=false)
    (s : PyStr) : lstrip isJsonSpace (gap ++ c::s)=c::s := by
  rw [lstrip,List.dropWhile_append_of_pos hgap]
  simp [hc]

lemma scanUnit_append {ds : PyStr} {u : ℕ} (h : scanUnit ds=some (u,[])) (rest : PyStr) :
    scanUnit (ds ++ rest)=some (u,rest) := by
  unfold scanUnit at h ⊢
  split at h
  · cases h
  · rename_i hlen
    obtain ⟨values,hvalues,heq⟩ := Option.map_eq_some_iff.mp h
    obtain ⟨hu,hdrop⟩ := Prod.mk.inj heq
    have hfour : ds.length=4 := by
      have := List.drop_eq_nil_iff.mp hdrop
      omega
    rw [if_neg (by rw [List.length_append]; omega),List.take_left' hfour,List.drop_left' hfour]
    rw [List.take_of_length_le (Nat.le_of_eq hfour)] at hvalues
    rw [hvalues,Option.map_some,hu]

lemma backslash_letters : ∀ b ∈ backslash, b.2≠117 ∧ backslash.find? (fun x => x.2==b.2)=some b := by
  simp [backslash,shortEscapes]

lemma scanChar_quote (s : PyStr) : scanChar (34::s)=some (none,s) := rfl

lemma scanChar_escape {e : CodePoint} (he : e≠117) (s : PyStr) :
    scanChar (92::e::s)=(backslash.find? (fun b => b.2==e)).map (fun b => (some b.1,s)) := if_neg he

lemma scanChar_unicode (s : PyStr) :
    scanChar (92::117::s)=(scanUnicode s).map (fun r => (some r.1,r.2)) := rfl

lemma scanUnicode_of_not_high {u : ℕ} {s t : PyStr} (h : scanUnit s=some (u,t))
    (hu : ¬(0xD800 ≤ u ∧ u ≤ 0xDBFF)) : scanUnicode s=some (ofUnit u,t) := by
  simp only [scanUnicode,h,hu,false_and,if_false]

lemma scanUnicode_pair {high low : ℕ} {s t u : PyStr} (h : scanUnit s=some (high,92::117::t))
    (hhigh : 0xD800 ≤ high ∧ high ≤ 0xDBFF) (hlow : scanUnit t=some (low,u))
    (hl : 0xDC00 ≤ low ∧ low ≤ 0xDFFF) : scanUnicode s=some (ofUnits high low,u) := by
  simp only [scanUnicode,h]
  rw [if_pos ⟨hhigh,rfl⟩,List.drop_succ_cons,List.drop_succ_cons,List.drop_zero,hlow]
  exact if_pos hl

lemma scanChar_text {c : CodePoint} {t : PyStr} (h : CharText c t) (rest : PyStr) :
    scanChar (t ++ rest)=some (some c,rest) := by
  cases h with
  | plain hc hquote hslash =>
    rw [List.singleton_append,scanChar.eq_def]
    dsimp only
    rw [if_neg hquote,if_neg hslash,if_neg (by omega)]
  | short h =>
    obtain ⟨hu,hfind⟩ := backslash_letters _ h
    rw [List.cons_append,List.singleton_append,scanChar_escape hu,hfind]
    rfl
  | unit hc h =>
    have hnot : ¬(0xD800 ≤ c.val ∧ c.val ≤ 0xDBFF) := by
      intro hhigh
      rw [isSurrogate,decide_eq_false_iff_not] at hc
      omega
    rw [List.cons_append,List.cons_append,scanChar_unicode,
      scanUnicode_of_not_high (scanUnit_append h rest) hnot,ofUnit,Fin.ofNat_val_eq_self]
    rfl
  | pair hhigh hlow hds hes =>
    rw [List.cons_append,List.cons_append,List.append_assoc,List.cons_append,List.cons_append,
      scanChar_unicode,scanUnicode_pair (scanUnit_append hds _) hhigh (scanUnit_append hes rest) hlow]
    rfl

/-- A string ends at its closing quote. -/
lemma scanString_text {s text : PyStr} (h : StringText s text) (rest : PyStr) :
    scanString (text ++ 34::rest)=some (s,rest) := by
  have hscan : ∀ n, text.length<n → scanCharacters n (text ++ 34::rest)=some (s,rest) := by
    induction h with
    | nil =>
      intro n hn
      obtain ⟨n,rfl⟩ : ∃ k, n=k+1 := ⟨n-1,by omega⟩
      rw [List.nil_append,scanCharacters,scanChar_quote]
    | @cons c t s ts h hs ih =>
      intro n hn
      rw [List.length_append] at hn
      have hpos : 0 < t.length := by cases h <;> simp
      obtain ⟨n,rfl⟩ : ∃ k, n=k+1 := ⟨n-1,by omega⟩
      rw [List.append_assoc,scanCharacters,scanChar_text h]
      dsimp only
      rw [ih n (by omega)]
      rfl
  apply hscan
  rw [List.length_append,List.length_cons]
  omega

/-- What may follow a number. -/
def isDelimiter (c : CodePoint) : Bool := isJsonSpace c || c==44 || c==93 || c==125

lemma isDelimiter_iff {c : CodePoint} : isDelimiter c=true ↔
    c=32 ∨ c=9 ∨ c=10 ∨ c=13 ∨ c=44 ∨ c=93 ∨ c=125 := by
  simp [isDelimiter,isJsonSpace,or_assoc]

def Ends (rest : PyStr) : Prop := ∀ c, rest.head?=some c → isDelimiter c=true

/-- The next character, if there is one, is none of these. -/
def Avoids (p : CodePoint → Bool) (s : PyStr) : Prop := ∀ c, s.head?=some c → p c=false

lemma Avoids.cons {p : CodePoint → Bool} {c : CodePoint} (hc : p c=false) (s : PyStr) :
    Avoids p (c::s) := by
  intro d hd
  rw [← Option.some.inj hd]
  exact hc

lemma Ends.avoids {rest : PyStr} (h : Ends rest) {p : CodePoint → Bool}
    (hp : ∀ c ∈ ([32,9,10,13,44,93,125] : List CodePoint), p c=false) : Avoids p rest := by
  intro c hc
  apply hp
  simpa using isDelimiter_iff.mp (h c hc)

lemma scanDigits_append {ds s : PyStr} (hds : Digits ds) (hs : Avoids isDigit s) :
    scanDigits (ds ++ s)=(ds,s) := by
  have hstop : s.takeWhile isDigit=[] ∧ s.dropWhile isDigit=s := by
    cases s with
    | nil => exact ⟨rfl,rfl⟩
    | cons c s => simp [hs c rfl]
  rw [scanDigits,List.takeWhile_append_of_pos hds.2,List.dropWhile_append_of_pos hds.2,hstop.1,
    hstop.2,List.append_nil]

/-- A run of digits begins with one. -/
lemma Digits.head {ds : PyStr} (h : Digits ds) : ∃ d t, ds=d::t ∧ isDigit d=true := by
  obtain ⟨d,t,rfl⟩ := List.exists_cons_of_ne_nil h.1
  exact ⟨d,t,rfl,h.2 d List.mem_cons_self⟩

lemma scanOptional_none {cs : List CodePoint} {s : PyStr} (h : Avoids (fun c => decide (c ∈ cs)) s) :
    scanOptional cs s=([],s) := by
  cases s with
  | nil => rfl
  | cons c s => exact if_neg (of_decide_eq_false (h c rfl))

lemma scanOptional_some {cs : List CodePoint} {c : CodePoint} (hc : c ∈ cs) (s : PyStr) :
    scanOptional cs (c::s)=([c],s) := if_pos hc

lemma isDigit_ne {c : CodePoint} (h : isDigit c=true) {cs : List CodePoint}
    (hcs : ∀ d ∈ cs, isDigit d=false) : c ∉ cs := by
  intro hc
  rw [hcs c hc] at h
  cases h

lemma scanInteger_append {digits s : PyStr}
    (h : digits=[48] ∨ Digits digits ∧ digits.head?≠some 48) (hs : Avoids isDigit s) :
    scanInteger (digits ++ s)=some (digits,s) := by
  rcases h with rfl | ⟨hdigits,hhead⟩
  · rfl
  · obtain ⟨d,t,rfl,hd⟩ := hdigits.head
    have hne : d≠48 := fun h => hhead (by rw [h]; rfl)
    have hscan := scanDigits_append hdigits hs
    rw [List.cons_append] at hscan
    rw [List.cons_append,scanInteger,if_neg hne,if_pos hd,hscan]

lemma scanFraction_none {s : PyStr} (h : Avoids (fun c => c==46) s) : scanFraction s=([],s) := by
  cases s with
  | nil => rfl
  | cons c s => exact if_neg (fun hc => beq_eq_false_iff_ne.mp (h c rfl) hc.1)

lemma scanFraction_append {ds s : PyStr} (hds : Digits ds) (hs : Avoids isDigit s) :
    scanFraction (46::(ds ++ s))=(46::ds,s) := by
  rw [scanFraction,scanDigits_append hds hs,if_pos ⟨rfl,hds.1⟩]

lemma scanExponent_none {s : PyStr} (h : Avoids (fun c => decide (c ∈ ([101,69] : List CodePoint))) s) :
    scanExponent s=([],s) := by
  cases s with
  | nil => rfl
  | cons c s => exact if_neg (fun hc => of_decide_eq_false (h c rfl) hc.1)

lemma scanExponent_append {e : CodePoint} {sign ds s : PyStr} (he : e ∈ ([101,69] : List CodePoint))
    (hsign : sign ∈ ([[],[43],[45]] : List PyStr)) (hds : Digits ds) (hs : Avoids isDigit s) :
    scanExponent (e::(sign ++ (ds ++ s)))=(e::(sign ++ ds),s) := by
  have hoptional : scanOptional [43,45] (sign ++ (ds ++ s))=(sign,ds ++ s) := by
    simp only [List.mem_cons,List.not_mem_nil,or_false] at hsign
    rcases hsign with rfl | rfl | rfl
    · obtain ⟨d,t,rfl,hd⟩ := hds.head
      exact scanOptional_none (.cons (decide_eq_false (isDigit_ne hd (by simp [isDigit]))) _)
    · exact scanOptional_some (by decide) _
    · exact scanOptional_some (by decide) _
  rw [scanExponent,hoptional]
  dsimp only
  rw [scanDigits_append hds hs,if_pos ⟨he,hds.1⟩]

section
variable (decimal : PyStr → String)

/-- A number ends where no more of it can follow. -/
lemma scanNumber_text {sign digits fraction exponent rest : PyStr}
    (h : NumberText sign digits fraction exponent) (hrest : Ends rest) :
    scanNumber decimal (sign ++ digits ++ fraction ++ exponent ++ rest)=
      some (numberValue decimal sign digits fraction exponent,rest) := by
  have hdigit : Avoids isDigit rest := hrest.avoids (by simp [isDigit])
  -- the exponent and what may come before it
  have hexponent : scanExponent (exponent ++ rest)=(exponent,rest) ∧ Avoids isDigit (exponent ++ rest) ∧
      Avoids (fun c => c==46) (exponent ++ rest) := by
    rcases h.exponent with rfl | ⟨e,esign,ds,he,hsign,hds,rfl⟩
    · exact ⟨scanExponent_none (hrest.avoids (by simp)),hdigit,hrest.avoids (by simp)⟩
    · rw [List.cons_append,List.append_assoc]
      refine ⟨scanExponent_append he hsign hds hdigit,.cons ?_ _,.cons ?_ _⟩
      · simp only [List.mem_cons,List.not_mem_nil,or_false] at he
        rcases he with rfl | rfl <;> rfl
      · simp only [List.mem_cons,List.not_mem_nil,or_false] at he
        rcases he with rfl | rfl <;> rfl
  have hfraction : scanFraction (fraction ++ (exponent ++ rest))=(fraction,exponent ++ rest) ∧
      Avoids isDigit (fraction ++ (exponent ++ rest)) := by
    rcases h.fraction with rfl | ⟨ds,hds,rfl⟩
    · exact ⟨scanFraction_none hexponent.2.2,hexponent.2.1⟩
    · exact ⟨scanFraction_append hds hexponent.2.1,.cons rfl _⟩
  have hinteger := scanInteger_append h.digits hfraction.2
  have hsign : scanOptional [45] (sign ++ (digits ++ (fraction ++ (exponent ++ rest))))=
      (sign,digits ++ (fraction ++ (exponent ++ rest))) := by
    rcases h.sign with rfl | rfl
    · obtain ⟨d,t,hd,hdigits⟩ : ∃ d t, digits=d::t ∧ isDigit d=true := by
        rcases h.digits with rfl | hdigits
        · exact ⟨48,[],rfl,rfl⟩
        · exact hdigits.1.head
      rw [hd]
      exact scanOptional_none (.cons (decide_eq_false (isDigit_ne hdigits (by simp [isDigit]))) _)
    · exact scanOptional_some (by decide) _
  rw [List.append_assoc,List.append_assoc,List.append_assoc,scanNumber,hsign]
  dsimp only
  rw [hinteger]
  dsimp only
  rw [hfraction.1,hexponent.1]

/-- Each constant is found where it stands. -/
lemma scanAtom_constant {text : PyStr} {v : Json} (h : (text,v) ∈ jsonConstants) (rest : PyStr) :
    scanAtom decimal (text ++ rest)=some (v,rest) := by
  have hfind : jsonConstants.find? (fun e => e.1.isPrefixOf (text ++ rest))=some (text,v) := by
    simp only [jsonConstants,List.mem_cons,Prod.mk.injEq,List.not_mem_nil,or_false] at h
    rcases h with ⟨rfl,rfl⟩ | ⟨rfl,rfl⟩ | ⟨rfl,rfl⟩ | ⟨rfl,rfl⟩ | ⟨rfl,rfl⟩ | ⟨rfl,rfl⟩ <;> rfl
  rw [scanAtom,hfind]
  dsimp only
  rw [List.drop_left]

lemma jsonConstants_letters : ∀ e ∈ jsonConstants, ∃ a b t, e.1=a::b::t ∧ isDigit a=false ∧
    isDigit b=false := by
  intro e he
  simp only [jsonConstants,List.mem_cons,List.not_mem_nil,or_false] at he
  rcases he with rfl | rfl | rfl | rfl | rfl | rfl <;> exact ⟨_,_,_,rfl,rfl,rfl⟩

/-- A number is no constant. -/
lemma scanAtom_number {c : CodePoint} {s : PyStr}
    (h : isDigit c=true ∨ ∃ d t, s=d::t ∧ isDigit d=true) :
    scanAtom decimal (c::s)=scanNumber decimal (c::s) := by
  have hnone : jsonConstants.find? (fun e => e.1.isPrefixOf (c::s))=none := by
    rw [List.find?_eq_none]
    intro e he hstarts
    obtain ⟨a,b,t,htext,ha,hb⟩ := jsonConstants_letters e he
    rw [htext,List.isPrefixOf_iff_prefix,List.cons_prefix_cons] at hstarts
    obtain ⟨rfl,hstarts⟩ := hstarts
    rcases h with hc | ⟨d,u,rfl,hd⟩
    · rw [ha] at hc
      cases hc
    · rw [List.cons_prefix_cons] at hstarts
      rw [← hstarts.1,hb] at hd
      cases hd
  rw [scanAtom,hnone]

lemma NumberText.head {sign digits fraction exponent : PyStr}
    (h : NumberText sign digits fraction exponent) : ∃ c s,
      sign ++ digits ++ fraction ++ exponent=c::s ∧ (isDigit c=true ∨ c=45 ∧ ∃ d t, s=d::t ∧ isDigit d=true) := by
  obtain ⟨d,t,rfl,hd⟩ : ∃ d t, digits=d::t ∧ isDigit d=true := by
    rcases h.digits with rfl | hdigits
    · exact ⟨48,[],rfl,rfl⟩
    · exact hdigits.1.head
  rcases h.sign with rfl | rfl
  · exact ⟨d,t ++ fraction ++ exponent,rfl,.inl hd⟩
  · exact ⟨45,d::(t ++ fraction ++ exponent),rfl,.inr ⟨rfl,d,_,rfl,hd⟩⟩

/-- The first character of a value, and of the rest of an array or an object. -/
def Opens (c : CodePoint) : Prop := isDelimiter c=false ∧ (c==0xFEFF)=false

lemma Written.head {part : Part} {text : PyStr} (h : Written decimal part text) :
    ∃ c s, text=c::s ∧ Opens c := by
  have hdigit : ∀ c, isDigit c=true → Opens c := by
    intro c hc
    refine ⟨?_,?_⟩
    · rw [← Bool.not_eq_true,isDelimiter_iff]
      rintro (rfl | rfl | rfl | rfl | rfl | rfl | rfl) <;> cases hc
    · rw [beq_eq_false_iff_ne]
      rintro rfl
      cases hc
  induction h with
  | constant h =>
    simp only [jsonConstants,List.mem_cons,Prod.mk.injEq,List.not_mem_nil,or_false] at h
    rcases h with ⟨rfl,rfl⟩ | ⟨rfl,rfl⟩ | ⟨rfl,rfl⟩ | ⟨rfl,rfl⟩ | ⟨rfl,rfl⟩ | ⟨rfl,rfl⟩ <;>
      exact ⟨_,_,rfl,rfl,rfl⟩
  | number h =>
    obtain ⟨c,s,heq,hc⟩ := h.head
    refine ⟨c,s,heq,?_⟩
    rcases hc with hc | ⟨rfl,-⟩
    · exact hdigit c hc
    · exact ⟨rfl,rfl⟩
  | string => exact ⟨_,_,rfl,rfl,rfl⟩
  | emptyArray => exact ⟨_,_,rfl,rfl,rfl⟩
  | array => exact ⟨_,_,rfl,rfl,rfl⟩
  | emptyObject => exact ⟨_,_,rfl,rfl,rfl⟩
  | object => exact ⟨_,_,rfl,rfl,rfl⟩
  | lastElement _ _ ih =>
    obtain ⟨c,s,rfl,hc⟩ := ih
    exact ⟨c,_,rfl,hc⟩
  | nextElement _ _ _ _ ih =>
    obtain ⟨c,s,rfl,hc⟩ := ih
    exact ⟨c,_,rfl,hc⟩
  | lastMember => exact ⟨_,_,rfl,rfl,rfl⟩
  | nextMember => exact ⟨_,_,rfl,rfl,rfl⟩

/-- What the scanner makes of a text that something follows. -/
def Part.Scanned : Part → PyStr → Prop
  | .value v, text => ∀ n rest, Ends rest → 2*(text ++ rest).length ≤ n →
      scanOnce decimal n (text ++ rest)=some (v,rest)
  | .elements xs, text => ∀ n rest, 2*(text ++ rest).length<n →
      scanElements decimal n (text ++ rest)=some (xs,rest)
  | .members items, text => ∀ n rest, 2*(text ++ rest).length<n →
      scanMembers decimal n (text ++ rest)=some (items,rest)

lemma lstrip_opens {gap : PyStr} (hgap : Blank gap) {c : CodePoint} (hc : Opens c) (s : PyStr) :
    lstrip isJsonSpace (gap ++ c::s)=c::s := by
  refine lstrip_gap hgap ?_ s
  have h := hc.1
  simp only [isDelimiter,Bool.or_eq_false_iff] at h
  exact h.1.1.1

lemma scanOnce_string (n : ℕ) (s : PyStr) :
    scanOnce decimal (n+1) (34::s)=(scanString s).map (fun r => (.str r.1,r.2)) := by
  rw [scanOnce,if_pos rfl]

lemma scanOnce_object (n : ℕ) (s : PyStr) : scanOnce decimal (n+1) (123::s)=
    if (lstrip isJsonSpace s).head?=some 125 then some (.dict [],(lstrip isJsonSpace s).tail)
    else (scanMembers decimal n (lstrip isJsonSpace s)).map (fun r => (.dict (Json.ofItems r.1),r.2)) := by
  rw [scanOnce,if_neg (by simp),if_pos rfl]

lemma scanOnce_array (n : ℕ) (s : PyStr) : scanOnce decimal (n+1) (91::s)=
    if (lstrip isJsonSpace s).head?=some 93 then some (.list [],(lstrip isJsonSpace s).tail)
    else (scanElements decimal n (lstrip isJsonSpace s)).map (fun r => (.list r.1,r.2)) := by
  rw [scanOnce,if_neg (by simp),if_neg (by simp),if_pos rfl]

lemma scanOnce_atom {c : CodePoint} (hc : c ∉ ([34,123,91] : List CodePoint)) (n : ℕ) (s : PyStr) :
    scanOnce decimal (n+1) (c::s)=scanAtom decimal (c::s) := by
  simp only [List.mem_cons,List.not_mem_nil,or_false,not_or] at hc
  rw [scanOnce,if_neg hc.1,if_neg hc.2.1,if_neg hc.2.2]

lemma ends_gap {gap : PyStr} (hgap : Blank gap) {c : CodePoint} (hc : isDelimiter c=true) (s : PyStr) :
    Ends (gap ++ c::s) := by
  intro d hd
  cases gap with
  | nil => rw [← Option.some.inj hd]; exact hc
  | cons g gap =>
    rw [← Option.some.inj hd]
    simp [isDelimiter,hgap g List.mem_cons_self]

/-- The scanner reads what is written, whatever follows. -/
theorem Written.scanned {part : Part} {text : PyStr} (h : Written decimal part text) :
    part.Scanned decimal text := by
  induction h with
  | @constant v text h =>
    intro n rest hrest hn
    have hhead : ∃ c s, text=c::s ∧ c ∉ ([34,123,91] : List CodePoint) := by
      simp only [jsonConstants,List.mem_cons,Prod.mk.injEq,List.not_mem_nil,or_false] at h
      rcases h with ⟨rfl,rfl⟩ | ⟨rfl,rfl⟩ | ⟨rfl,rfl⟩ | ⟨rfl,rfl⟩ | ⟨rfl,rfl⟩ | ⟨rfl,rfl⟩ <;>
        exact ⟨_,_,rfl,by decide +kernel⟩
    have hscan := scanAtom_constant decimal h rest
    obtain ⟨c,s,rfl,hc⟩ := hhead
    rw [List.cons_append] at hscan hn ⊢
    rw [List.length_cons] at hn
    obtain ⟨n,rfl⟩ : ∃ k, n=k+1 := ⟨n-1,by omega⟩
    rw [scanOnce_atom decimal hc,hscan]
  | number h =>
    intro n rest hrest hn
    have hscan := scanNumber_text decimal h hrest
    obtain ⟨c,s,heq,hc⟩ := h.head
    rw [heq,List.cons_append] at hscan hn ⊢
    rw [List.length_cons] at hn
    obtain ⟨n,rfl⟩ : ∃ k, n=k+1 := ⟨n-1,by omega⟩
    have hopen : c ∉ ([34,123,91] : List CodePoint) := by
      rcases hc with hc | ⟨rfl,-⟩
      · exact isDigit_ne hc (by simp [isDigit])
      · simp
    rw [scanOnce_atom decimal hopen,scanAtom_number,hscan]
    rcases hc with hc | ⟨-,d,t,rfl,hd⟩
    · exact .inl hc
    · exact .inr ⟨d,t ++ rest,rfl,hd⟩
  | string h =>
    intro n rest hrest hn
    rw [List.cons_append,List.append_assoc] at hn ⊢
    rw [List.length_cons] at hn
    obtain ⟨n,rfl⟩ : ∃ k, n=k+1 := ⟨n-1,by omega⟩
    rw [scanOnce_string,List.singleton_append,scanString_text h]
    rfl
  | emptyArray hgap =>
    intro n rest hrest hn
    rw [List.cons_append,List.append_assoc] at hn ⊢
    rw [List.length_cons] at hn
    obtain ⟨n,rfl⟩ : ∃ k, n=k+1 := ⟨n-1,by omega⟩
    rw [scanOnce_array,List.singleton_append,lstrip_gap hgap rfl,if_pos List.head?_cons]
    rfl
  | array hgap h ih =>
    intro n rest hrest hn
    rw [List.cons_append,List.append_assoc] at hn ⊢
    rw [List.length_cons,List.length_append] at hn
    obtain ⟨n,rfl⟩ : ∃ k, n=k+1 := ⟨n-1,by omega⟩
    have hscan := ih n rest (by omega)
    obtain ⟨c,s,rfl,hc⟩ := h.head
    rw [List.cons_append] at hscan ⊢
    have hne : ¬(c::(s ++ rest)).head?=some 93 := by
      rintro hc'
      rw [Option.some.inj hc'] at hc
      exact absurd hc.1 (by decide +kernel)
    rw [scanOnce_array,lstrip_opens hgap hc,if_neg hne,hscan]
    rfl
  | emptyObject hgap =>
    intro n rest hrest hn
    rw [List.cons_append,List.append_assoc] at hn ⊢
    rw [List.length_cons] at hn
    obtain ⟨n,rfl⟩ : ∃ k, n=k+1 := ⟨n-1,by omega⟩
    rw [scanOnce_object,List.singleton_append,lstrip_gap hgap rfl,if_pos List.head?_cons]
    rfl
  | object hgap h ih =>
    intro n rest hrest hn
    rw [List.cons_append,List.append_assoc] at hn ⊢
    rw [List.length_cons,List.length_append] at hn
    obtain ⟨n,rfl⟩ : ∃ k, n=k+1 := ⟨n-1,by omega⟩
    have hscan := ih n rest (by omega)
    obtain ⟨c,s,rfl,hc⟩ := h.head
    rw [List.cons_append] at hscan ⊢
    have hne : ¬(c::(s ++ rest)).head?=some 125 := by
      rintro hc'
      rw [Option.some.inj hc'] at hc
      exact absurd hc.1 (by decide +kernel)
    rw [scanOnce_object,lstrip_opens hgap hc,if_neg hne,hscan]
    rfl
  | @lastElement x text gap h hgap ih =>
    intro n rest hn
    rw [List.append_assoc,List.append_assoc,List.singleton_append] at hn ⊢
    obtain ⟨n,rfl⟩ : ∃ k, n=k+1 := ⟨n-1,by omega⟩
    rw [scanElements,ih n _ (ends_gap hgap rfl rest) (by omega)]
    dsimp only
    rw [lstrip_gap hgap rfl]
    rfl
  | @nextElement x xs text gap gap' more h hgap hgap' hmore ih ihmore =>
    intro n rest hn
    have htext : (text ++ (gap ++ 44::(gap' ++ more))) ++ rest=
        text ++ (gap ++ 44::(gap' ++ (more ++ rest))) := by simp
    rw [htext] at hn ⊢
    obtain ⟨n,rfl⟩ : ∃ k, n=k+1 := ⟨n-1,by omega⟩
    rw [scanElements,ih n _ (ends_gap hgap rfl _) (by omega)]
    simp only [List.length_append,List.length_cons] at hn
    have hscan := ihmore n rest (by rw [List.length_append]; omega)
    obtain ⟨c,s,rfl,hc⟩ := hmore.head
    dsimp only
    rw [lstrip_gap hgap rfl]
    dsimp only
    rw [if_neg (by simp),if_pos rfl,List.cons_append,lstrip_opens hgap' hc,← List.cons_append,hscan]
    rfl
  | @lastMember k key x text before after gap hk hbefore hafter h hgap ih =>
    intro n rest hn
    have htext : 34::(key ++ 34::(before ++ 58::(after ++ (text ++ (gap ++ [125]))))) ++ rest=
        34::(key ++ 34::(before ++ 58::(after ++ (text ++ (gap ++ 125::rest))))) := by simp
    rw [htext] at hn ⊢
    obtain ⟨n,rfl⟩ : ∃ k, n=k+1 := ⟨n-1,by omega⟩
    have hscan := ih n (gap ++ 125::rest) (ends_gap hgap rfl rest) (by
      simp only [List.length_append,List.length_cons] at hn ⊢
      omega)
    obtain ⟨c,s,rfl,hc⟩ := h.head
    rw [List.cons_append] at hscan ⊢
    rw [scanMembers,if_neg (by simp),scanString_text hk]
    dsimp only
    rw [lstrip_gap hbefore rfl]
    dsimp only
    rw [if_neg (by simp),lstrip_opens hafter hc,hscan]
    dsimp only
    rw [lstrip_gap hgap rfl]
    rfl
  | @nextMember k key x items text before after gap gap' more hk hbefore hafter h hgap hgap' hmore ih
      ihmore =>
    intro n rest hn
    have htext :
        34::(key ++ 34::(before ++ 58::(after ++ (text ++ (gap ++ 44::(gap' ++ more)))))) ++ rest=
        34::(key ++ 34::(before ++ 58::(after ++ (text ++ (gap ++ 44::(gap' ++ (more ++ rest))))))) := by
      simp
    rw [htext] at hn ⊢
    obtain ⟨n,rfl⟩ : ∃ k, n=k+1 := ⟨n-1,by omega⟩
    simp only [List.length_append,List.length_cons] at hn
    have hscan := ih n (gap ++ 44::(gap' ++ (more ++ rest))) (ends_gap hgap rfl _) (by
      simp only [List.length_append,List.length_cons]
      omega)
    have hscanmore := ihmore n rest (by rw [List.length_append]; omega)
    obtain ⟨c,s,rfl,hc⟩ := h.head
    obtain ⟨d,t,rfl,hd⟩ := hmore.head
    rw [List.cons_append] at hscan hscanmore ⊢
    rw [scanMembers,if_neg (by simp),scanString_text hk]
    dsimp only
    rw [lstrip_gap hbefore rfl]
    dsimp only
    rw [if_neg (by simp),lstrip_opens hafter hc,hscan]
    dsimp only
    rw [lstrip_gap hgap rfl]
    dsimp only
    rw [if_neg (by simp),if_pos rfl,List.cons_append,lstrip_opens hgap' hd,hscanmore]
    rfl

/-- `json.loads` reads every text of a value, with white space around it, as that value. -/
theorem jsonLoads_written {v : Json} {text before after : PyStr} (h : Written decimal (.value v) text)
    (hbefore : Blank before) (hafter : Blank after) :
    jsonLoads decimal (before ++ (text ++ after))=some v := by
  have hends : Ends after := by
    intro c hc
    rw [isDelimiter,hafter c (List.mem_of_head? hc)]
    rfl
  have hscan := h.scanned decimal (2*(before ++ (text ++ after)).length) after hends (by
    simp only [List.length_append]
    omega)
  obtain ⟨c,s,rfl,hc⟩ := h.head
  have hmark : ¬(before ++ (c::s ++ after)).head?=some 0xFEFF := by
    intro hmark
    cases before with
    | nil =>
      rw [Option.some.inj hmark] at hc
      exact absurd hc.2 (by decide +kernel)
    | cons b before =>
      have hb := hbefore b List.mem_cons_self
      rw [Option.some.inj hmark] at hb
      exact absurd hb (by decide +kernel)
  rw [jsonLoads,if_neg hmark,List.cons_append,lstrip_opens hbefore hc,← List.cons_append,hscan]
  exact if_pos (lstrip_blank hafter)

theorem jsonLoads_text {v : Json} {text : PyStr} (h : Written decimal (.value v) text) :
    jsonLoads decimal text=some v := by
  have hnil : Blank [] := fun c hc => (by cases hc)
  have hloads := jsonLoads_written decimal h hnil hnil
  rw [List.nil_append,List.append_nil] at hloads
  exact hloads

end
end RagIngestion.Python
