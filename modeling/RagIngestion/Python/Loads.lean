import RagIngestion.Python.Value

/-! `json.loads`: the scanner of the standard library. What `float` makes of a decimal text is a
parameter. -/
namespace RagIngestion.Python

/-- White space between the tokens of a JSON text. -/
def isJsonSpace (c : CodePoint) : Bool := c==32 || c==9 || c==10 || c==13

def isDigit (c : CodePoint) : Bool := decide (48 ≤ c.val ∧ c.val ≤ 57)

/-- The value of an ASCII digit in base 16. -/
def asciiHexValue (c : CodePoint) : Option ℕ :=
  if isDigit c then some (c.val-48)
  else if 97 ≤ c.val ∧ c.val ≤ 102 then some (c.val-87)
  else if 65 ≤ c.val ∧ c.val ≤ 70 then some (c.val-55)
  else none

/-- The four digits after a backslash and a `u`. -/
def scanUnit (s : PyStr) : Option (ℕ × PyStr) :=
  if s.length<4 then none
  else ((s.take 4).mapM asciiHexValue).map
    (fun ds => (ds.foldl (fun k d => 16*k+d) 0,s.drop 4))

/-- The character of a code unit, or of two of them. -/
def ofUnit (u : ℕ) : CodePoint := Fin.ofNat 0x110000 u
def ofUnits (high low : ℕ) : CodePoint := ofUnit (0x10000+(high-0xD800)*1024+(low-0xDC00))

/-- The character of a `\u` escape. A high surrogate joins a low one in the next escape. -/
def scanUnicode (s : PyStr) : Option (CodePoint × PyStr) :=
  match scanUnit s with
  | none => none
  | some (u,t) =>
    if (0xD800 ≤ u ∧ u ≤ 0xDBFF) ∧ t.take 2=[92,117] then
      match scanUnit (t.drop 2) with
      | none => none
      | some (l,t') => if 0xDC00 ≤ l ∧ l ≤ 0xDFFF then some (ofUnits u l,t') else some (ofUnit u,t)
    else some (ofUnit u,t)

/-- `BACKSLASH`: each character with the letter of its escape. -/
def backslash : List (CodePoint × CodePoint) := (47,47)::shortEscapes

/-- The next character of a string, or its end. Control characters are not allowed. -/
def scanChar : PyStr → Option (Option CodePoint × PyStr)
  | [] => none
  | c::s =>
    if c=34 then some (none,s)
    else if c=92 then
      match s with
      | [] => none
      | e::t =>
        if e=117 then (scanUnicode t).map (fun r => (some r.1,r.2))
        else (backslash.find? (fun b => b.2==e)).map (fun b => (some b.1,t))
    else if c.val<32 then none
    else some (some c,s)

/-- `scanstring`, after the opening quote. -/
def scanCharacters : ℕ → PyStr → Option (PyStr × PyStr)
  | 0, _ => none
  | n+1, s =>
    match scanChar s with
    | none => none
    | some (none,t) => some ([],t)
    | some (some c,t) => (scanCharacters n t).map (fun r => (c::r.1,r.2))

def scanString (s : PyStr) : Option (PyStr × PyStr) := scanCharacters (s.length+1) s

/-- The digits at the start of a text. -/
def scanDigits (s : PyStr) : PyStr × PyStr := (s.takeWhile isDigit,s.dropWhile isDigit)

/-- One of the given characters, if there is one. -/
def scanOptional (cs : List CodePoint) : PyStr → PyStr × PyStr
  | [] => ([],[])
  | c::s => if c ∈ cs then ([c],s) else ([],c::s)

/-- `0|[1-9][0-9]*`. -/
def scanInteger : PyStr → Option (PyStr × PyStr)
  | [] => none
  | c::s =>
    if c=48 then some ([48],s)
    else if isDigit c then some (scanDigits (c::s))
    else none

/-- `(\.[0-9]+)?`. -/
def scanFraction : PyStr → PyStr × PyStr
  | [] => ([],[])
  | c::s =>
    if c=46 ∧ (scanDigits s).1≠[] then (46::(scanDigits s).1,(scanDigits s).2) else ([],c::s)

/-- `([eE][-+]?[0-9]+)?`. -/
def scanExponent : PyStr → PyStr × PyStr
  | [] => ([],[])
  | c::s =>
    let sign := scanOptional [43,45] s
    let digits := scanDigits sign.2
    if c ∈ ([101,69] : List CodePoint) ∧ digits.1≠[] then (c::(sign.1 ++ digits.1),digits.2)
    else ([],c::s)

def natOfDigits (ds : PyStr) : ℕ := ds.foldl (fun n c => 10*n+(c.val-48)) 0

section
variable (decimal : PyStr → String)

/-- An integer, or a float where there is a fraction or an exponent. -/
def numberValue (sign digits fraction exponent : PyStr) : Json :=
  if fraction=[] ∧ exponent=[] then
    .int (if sign=[] then (natOfDigits digits : ℤ) else -(natOfDigits digits : ℤ))
  else .float (decimal (sign ++ digits ++ fraction ++ exponent))

/-- `NUMBER_RE`. -/
def scanNumber (s : PyStr) : Option (Json × PyStr) :=
  let sign := scanOptional [45] s
  match scanInteger sign.2 with
  | none => none
  | some (digits,t) =>
    let fraction := scanFraction t
    let exponent := scanExponent fraction.2
    some (numberValue decimal sign.1 digits fraction.1 exponent.1,exponent.2)

/-- The words with a value of their own. -/
def jsonConstants : List (PyStr × Json) :=
  [(py "null",.null),(py "true",.bool true),(py "false",.bool false),(py "NaN",.float "nan"),
    (py "Infinity",.float "inf"),(py "-Infinity",.float "-inf")]

def scanAtom (s : PyStr) : Option (Json × PyStr) :=
  match jsonConstants.find? (fun e => e.1.isPrefixOf s) with
  | some e => some (e.2,s.drop e.1.length)
  | none => scanNumber decimal s

mutual
/-- `scan_once`: the value at the start of a text, and what follows it. -/
def scanOnce : ℕ → PyStr → Option (Json × PyStr)
  | 0, _ => none
  | _+1, [] => none
  | n+1, c::s =>
    if c=34 then (scanString s).map (fun r => (.str r.1,r.2))
    else if c=123 then
      let t := lstrip isJsonSpace s
      if t.head?=some 125 then some (.dict [],t.tail)
      else (scanMembers n t).map (fun r => (.dict (Json.ofItems r.1),r.2))
    else if c=91 then
      let t := lstrip isJsonSpace s
      if t.head?=some 93 then some (.list [],t.tail)
      else (scanElements n t).map (fun r => (.list r.1,r.2))
    else scanAtom decimal (c::s)

/-- The values of an array up to its end. -/
def scanElements : ℕ → PyStr → Option (List Json × PyStr)
  | 0, _ => none
  | n+1, s =>
    match scanOnce n s with
    | none => none
    | some (x,s₁) =>
      match lstrip isJsonSpace s₁ with
      | [] => none
      | d::s₂ =>
        if d=93 then some ([x],s₂)
        else if d=44 then
          (scanElements n (lstrip isJsonSpace s₂)).map (fun r => (x::r.1,r.2))
        else none

/-- The pairs of an object up to its end. -/
def scanMembers : ℕ → PyStr → Option (List (PyStr × Json) × PyStr)
  | 0, _ => none
  | _+1, [] => none
  | n+1, q::s =>
    if q≠34 then none
    else match scanString s with
    | none => none
    | some (k,s₁) =>
      match lstrip isJsonSpace s₁ with
      | [] => none
      | c::s₂ =>
        if c≠58 then none
        else match scanOnce n (lstrip isJsonSpace s₂) with
        | none => none
        | some (x,s₃) =>
          match lstrip isJsonSpace s₃ with
          | [] => none
          | d::s₄ =>
            if d=125 then some ([(k,x)],s₄)
            else if d=44 then
              (scanMembers n (lstrip isJsonSpace s₄)).map (fun r => ((k,x)::r.1,r.2))
            else none
end

/-- `json.loads(text)`; `none` is its `JSONDecodeError`. -/
def jsonLoads (text : PyStr) : Option Json :=
  if text.head?=some 0xFEFF then none
  else match scanOnce decimal (2*text.length) (lstrip isJsonSpace text) with
  | none => none
  | some (x,t) => if lstrip isJsonSpace t=[] then some x else none

end

end RagIngestion.Python
