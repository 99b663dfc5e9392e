import RagIngestion.Python.Text

/-! `urllib.parse.urlsplit`. The `ValueError`s it raises on a network location with brackets
or with characters that NFKC turns into delimiters are left out: a caller that compares the
location with a plain bucket name raises `ValueError` on all of these as well. -/
namespace RagIngestion.Python

structure SplitResult where
  scheme : PyStr
  netloc : PyStr
  path : PyStr
  deriving DecidableEq

def isAsciiLetter (c : CodePoint) : Bool :=
  decide ((65 ≤ c.val ∧ c.val ≤ 90) ∨ (97 ≤ c.val ∧ c.val ≤ 122))

def isAsciiDigit (c : CodePoint) : Bool := decide (48 ≤ c.val ∧ c.val ≤ 57)

def isSchemeChar (c : CodePoint) : Bool :=
  isAsciiLetter c || isAsciiDigit c || c==43 || c==45 || c==46

/-- The tab and line-break characters `urlsplit` deletes from a URL. -/
def isUnsafeUrlChar (c : CodePoint) : Bool := c==9 || c==13 || c==10

/-- Split off a scheme that ends at the first colon. -/
def splitScheme (url : PyStr) : PyStr × PyStr :=
  let head := url.takeWhile (fun c => c≠58)
  if head.length<url.length ∧ head.head?.any isAsciiLetter ∧ head.all isSchemeChar then
    (lowerAscii head,url.drop (head.length+1))
  else ([],url)

/-- Split off the network location that follows two slashes. -/
def splitNetloc (url : PyStr) : PyStr × PyStr :=
  if url.take 2=py "//" then
    let rest := url.drop 2
    (rest.takeWhile (fun c => c≠47 ∧ c≠63 ∧ c≠35),rest.dropWhile (fun c => c≠47 ∧ c≠63 ∧ c≠35))
  else ([],url)

/-- The path of the rest of a URL: the fragment is cut off first, then the query. -/
def cutPath (url : PyStr) : PyStr := (url.takeWhile (fun c => c≠35)).takeWhile (fun c => c≠63)

def urlsplit (url : PyStr) : SplitResult :=
  let url := (lstrip (fun c => decide (c.val ≤ 32)) url).filter (fun c => !isUnsafeUrlChar c)
  let s := splitScheme url
  let n := splitNetloc s.2
  ⟨s.1,n.1,cutPath n.2⟩

lemma cutPath_sublist (s : PyStr) : (cutPath s).Sublist (s.takeWhile (fun c => decide (c≠35))) :=
  List.takeWhile_sublist _

/-- A path stays whole exactly when no character ends it. -/
theorem cutPath_eq_self_iff (s : PyStr) : cutPath s=s ↔ ∀ c ∈ s, c≠35 ∧ c≠63 := by
  constructor
  · intro h
    have h35 : s.takeWhile (fun c => decide (c≠35))=s :=
      (List.takeWhile_sublist _).antisymm (by simpa only [h] using cutPath_sublist s)
    have h63 : s.takeWhile (fun c => decide (c≠63))=s := by
      rw [cutPath,h35] at h
      exact h
    intro c hc
    exact ⟨of_decide_eq_true (List.takeWhile_eq_self_iff.mp h35 c hc),
      of_decide_eq_true (List.takeWhile_eq_self_iff.mp h63 c hc)⟩
  · intro h
    have h35 : s.takeWhile (fun c => decide (c≠35))=s :=
      List.takeWhile_eq_self_iff.mpr (fun c hc => decide_eq_true (h c hc).1)
    rw [cutPath,h35]
    exact List.takeWhile_eq_self_iff.mpr (fun c hc => decide_eq_true (h c hc).2)

/-- Deleting characters and cutting keeps the text exactly when there is nothing to do. -/
theorem cutPath_filter_eq_iff (s : PyStr) :
    cutPath (s.filter (fun c => !isUnsafeUrlChar c))=s ↔
      ∀ c ∈ s, isUnsafeUrlChar c=false ∧ c≠35 ∧ c≠63 := by
  constructor
  · intro h
    have hcut := (cutPath_sublist (s.filter (fun c => !isUnsafeUrlChar c))).trans
      (List.takeWhile_sublist _)
    have hf : s.filter (fun c => !isUnsafeUrlChar c)=s :=
      List.filter_sublist.antisymm (by simpa only [h] using hcut)
    intro c hc
    rw [hf] at h
    exact ⟨by simpa using List.filter_eq_self.mp hf c hc,(cutPath_eq_self_iff s).mp h c hc⟩
  · intro h
    have hf : s.filter (fun c => !isUnsafeUrlChar c)=s :=
      List.filter_eq_self.mpr (fun c hc => by simp [(h c hc).1])
    rw [hf]
    exact (cutPath_eq_self_iff s).mpr (fun c hc => (h c hc).2)

end RagIngestion.Python
