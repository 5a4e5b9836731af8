import Mathlib.Data.List.Forall2
import ComplianceLoop.PyLib.Strings
import ComplianceLoop.PyLib.Regex
import ComplianceLoop.Retrieval.Retriever

/-!
# Queries built from findings (`_build_query_from_findings`)

A retrieval query names a concept for each of the first three findings that are a failure or a warning. The concept is
looked up in the finding code, but the message is read as well: it is searched for `FOIR`, and it is the concept itself
where the code has none of the listed words. So two lists of findings that differ in their messages only have the same
query exactly when the code of each of these findings names `FOIR` (`ignoresMessages_iff`).
-/

set_option autoImplicit false

namespace ComplianceLoop

open PyLib

/-! ## The query -/

/-- The names of the loan purposes. -/
def purposeMap : List (Text × Text) :=
  [("PERSONAL_UNSECURED".toList, "unsecured personal loan".toList),
    ("HOME_SECURED".toList, "housing loan secured".toList),
    ("VEHICLE_SECURED".toList, "vehicle loan secured".toList),
    ("BUSINESS_UNSECURED".toList, "business loan unsecured".toList),
    ("MICROFINANCE".toList, "microfinance loan".toList)]

/-- The name of a loan purpose; `toLower` is `str.lower`, whose table of letters does not matter here. -/
def purposeText (toLower : Text → Text) (loanPurpose : Text) : Text :=
  (getItem loanPurpose purposeMap).getD ((toLower loanPurpose).map fun c => if c = '_' then ' ' else c)

def severityKey : Text := "severity".toList
def findingCodeKey : Text := "finding_code".toList
def agentNameKey : Text := "agent_name".toList
def messageKey : Text := "message".toList

/-- `f.get("severity") in ("FAIL", "WARN")`. -/
def isRelevant (f : TextDict) : Bool :=
  f.get? severityKey = some "FAIL".toList || f.get? severityKey = some "WARN".toList

/-- The FAIL and WARN findings. -/
def relevantFindings (findings : List TextDict) : List TextDict := findings.filter isRelevant

def foirConcept : Text := "FOIR fixed obligation income ratio limit".toList

/-- The concept of a finding that does not name `FOIR`. -/
def otherConcept (code message : Text) : Text :=
  if "KYC".toList <:+: code ∨ "DOCUMENT".toList <:+: code then "KYC documentation requirements OVD validity".toList
  else if "SANCTIONS".toList <:+: code ∨ "WATCHLIST".toList <:+: code then
    "sanctions screening watchlist PMLA requirements".toList
  else if "TEMPORAL".toList <:+: code ∨ "EXPIRY".toList <:+: code then
    "KYC validity period update interval requirements".toList
  else if "LTV".toList <:+: code then "loan to value ratio secured loans".toList
  else if "NTH".toList <:+: code then "net take home income repayment capacity".toList
  else if message ≠ [] then message.take 100
  else code

/-- The concept for a code and a message. -/
def findingConcept (code message : Text) : Text :=
  if "FOIR".toList <:+: code ∨ "FOIR".toList <:+: message then foirConcept else otherConcept code message

/-- What is appended to `finding_concepts` for a finding. -/
def concept (f : TextDict) : Text := findingConcept (f.get findingCodeKey []) (f.get messageKey [])

/-- `finding_concepts`. -/
def findingConcepts (relevant : List TextDict) : List Text := (relevant.take 3).map concept

/-- `_build_query_from_findings`. -/
def buildQueryFromFindings (toLower : Text → Text) (findings : List TextDict) (loanPurpose : Text) : Text :=
  let purpose := purposeText toLower loanPurpose
  let relevant := relevantFindings findings
  if relevant = [] then
    "RBI NBFC ".toList ++ purpose ++
      " compliance requirements KYC documentation income proof approval criteria".toList
  else
    "RBI NBFC ".toList ++ purpose ++ " regulations: ".toList ++ (". ".toList.intercalate (findingConcepts relevant) ++
      ". What do the RBI guidelines require?".toList)

/-- `query_with_context`. -/
def FAISSRetriever.queryWithContext {V S : Type} (retriever : FAISSRetriever V S) (toLower : Text → Text)
    (agentFindings : List TextDict) (loanPurpose : Text) (topK : Int) : Except PyExc (List (RetrievedChunk S)) :=
  retriever.query (buildQueryFromFindings toLower agentFindings loanPurpose) topK

/-! ## Two runs -/

/-- The findings agree on everything but the message. -/
structure SameButMessage (f g : TextDict) : Prop where
  agentName : f.get? agentNameKey = g.get? agentNameKey
  findingCode : f.get? findingCodeKey = g.get? findingCodeKey
  severity : f.get? severityKey = g.get? severityKey

/-- Other messages in the findings do not change the query. -/
def IgnoresMessages (toLower : Text → Text) (findings : List TextDict) (loanPurpose : Text) : Prop :=
  ∀ findings', List.Forall₂ SameButMessage findings findings' →
    buildQueryFromFindings toLower findings' loanPurpose = buildQueryFromFindings toLower findings loanPurpose

/-- The code of the finding names `FOIR`. -/
def NamesFoir (f : TextDict) : Prop := "FOIR".toList <:+: f.get findingCodeKey []

theorem sameButMessage_refl (fs : List TextDict) : List.Forall₂ SameButMessage fs fs :=
  List.forall₂_same.mpr fun _ _ => ⟨rfl, rfl, rfl⟩

theorem SameButMessage.isRelevant {f g : TextDict} (h : SameButMessage f g) : isRelevant f = isRelevant g := by
  rw [ComplianceLoop.isRelevant, ComplianceLoop.isRelevant, h.severity]

theorem SameButMessage.code {f g : TextDict} (h : SameButMessage f g) :
    f.get findingCodeKey [] = g.get findingCodeKey [] := by
  rw [TextDict.get, TextDict.get, h.findingCode]

/-- The relevant findings of two lists that agree but for the messages agree in the same way. -/
theorem forall₂_relevant {fs gs : List TextDict} (h : List.Forall₂ SameButMessage fs gs) :
    List.Forall₂ SameButMessage (relevantFindings fs) (relevantFindings gs) := by
  induction h with
  | nil => exact .nil
  | @cons f g fs gs hfg _ ih =>
    rw [relevantFindings, relevantFindings, List.filter_cons, List.filter_cons, hfg.isRelevant]
    split
    · exact .cons hfg ih
    · exact ih

/-- Codes that name `FOIR` leave the messages out of the concepts. -/
theorem findingConcepts_eq {fs gs : List TextDict} (h : List.Forall₂ SameButMessage fs gs)
    (hc : ∀ f ∈ fs.take 3, NamesFoir f) : findingConcepts gs = findingConcepts fs := by
  have hconst : ∀ {l m : List TextDict}, List.Forall₂ SameButMessage l m → (∀ f ∈ l, NamesFoir f) →
      m.map concept = l.map concept := by
    intro l m hlm
    induction hlm with
    | nil => exact fun _ => rfl
    | cons hfg _ ih =>
      intro hn
      obtain ⟨hf, hl⟩ := List.forall_mem_cons.mp hn
      rw [List.map_cons, List.map_cons, ih hl, concept, findingConcept, if_pos (.inl (hfg.code ▸ hf)), concept,
        findingConcept, if_pos (.inl hf)]
  exact hconst (List.forall₂_take 3 h) hc

/-! ## A message that shows -/

/-- Where the code does not name `FOIR`, some message changes the concept. -/
theorem exists_findingConcept_ne {code : Text} (hc : ¬ "FOIR".toList <:+: code) (message : Text) :
    ∃ message', findingConcept code message' ≠ findingConcept code message := by
  have hfoir : findingConcept code "FOIR".toList = foirConcept := if_pos (.inr (List.infix_refl _))
  have hdash : findingConcept code ['-'] ≠ foirConcept := by
    rw [findingConcept, if_neg (by rintro (h | h); exacts [hc h, absurd h (by decide)])]
    rw [otherConcept, if_pos (show ['-'] ≠ [] by decide)]
    split_ifs <;> decide
  by_cases h : findingConcept code message = foirConcept
  · exact ⟨['-'], fun he => hdash (he.trans h)⟩
  · exact ⟨"FOIR".toList, fun he => h (he.symm.trans hfoir)⟩

theorem sameButMessage_set (f : TextDict) (message : Text) : SameButMessage f (f.set messageKey message) where
  agentName := (f.get?_set_of_ne (by decide) message).symm
  findingCode := (f.get?_set_of_ne (by decide) message).symm
  severity := (f.get?_set_of_ne (by decide) message).symm

/-- A finding that counts, with what is before and behind it. -/
theorem exists_split {fs : List TextDict} {f : TextDict} (h : f ∈ (relevantFindings fs).take 3) :
    isRelevant f = true ∧ ∃ pre post l m, fs = pre ++ f :: post ∧
      ∀ g, isRelevant g = true → (relevantFindings (pre ++ g :: post)).take 3 = l ++ g :: m := by
  obtain ⟨l, m, hlm⟩ := List.append_of_mem h
  have hrel : fs.filter isRelevant = l ++ f :: (m ++ (relevantFindings fs).drop 3) := by
    have := List.take_append_drop 3 (relevantFindings fs)
    rw [hlm] at this
    simpa [relevantFindings] using this.symm
  obtain ⟨A, B, rfl, hA, hB⟩ := List.filter_eq_append_iff.mp hrel
  obtain ⟨C, E, rfl, hC, hf, hE⟩ := List.filter_eq_cons_iff.mp hB
  refine ⟨hf, A ++ C, E, l, m, by simp, fun g hg => ?_⟩
  have hCnil : C.filter isRelevant = [] := List.filter_eq_nil_iff.mpr fun x hx => hC x hx
  have hall : relevantFindings (A ++ C ++ g :: E) =
      (l ++ g :: m) ++ (relevantFindings (A ++ (C ++ f :: E))).drop 3 := by
    rw [relevantFindings, List.filter_append, List.filter_append, hA, hCnil, List.filter_cons_of_pos hg, hE]
    simp
  have hlen : (l ++ f :: m).length = min 3 (relevantFindings (A ++ (C ++ f :: E))).length := by
    rw [← hlm, List.length_take]
  have hsame : (l ++ g :: m).length = (l ++ f :: m).length := by simp
  rw [hall, List.take_append, List.take_of_length_le (by omega), List.take_eq_nil_iff.mpr, List.append_nil]
  rw [List.drop_eq_nil_iff]
  omega

/-- The query for findings of which some count. -/
theorem buildQuery_of_relevant {toLower : Text → Text} {fs l m : List TextDict} {f : TextDict}
    (h : (relevantFindings fs).take 3 = l ++ f :: m) (loanPurpose : Text) :
    buildQueryFromFindings toLower fs loanPurpose =
      "RBI NBFC ".toList ++ purposeText toLower loanPurpose ++ " regulations: ".toList ++
        (". ".toList.intercalate (l.map concept ++ concept f :: m.map concept) ++
          ". What do the RBI guidelines require?".toList) := by
  have hne : relevantFindings fs ≠ [] := by
    intro hn
    rw [hn] at h
    simp at h
  rw [buildQueryFromFindings, if_neg hne, findingConcepts, h, List.map_append, List.map_cons]

/-- **Messages stay out of the query exactly when each of the first three failures and warnings has a code that names
`FOIR`.** -/
theorem ignoresMessages_iff (toLower : Text → Text) (findings : List TextDict) (loanPurpose : Text) :
    IgnoresMessages toLower findings loanPurpose ↔ ∀ f ∈ (relevantFindings findings).take 3, NamesFoir f := by
  constructor
  · intro h f hf
    by_contra hc
    obtain ⟨hrel, pre, post, l, m, rfl, htake⟩ := exists_split hf
    obtain ⟨message, hm⟩ := exists_findingConcept_ne hc (f.get messageKey [])
    have hsame := sameButMessage_set f message
    have hg : isRelevant (f.set messageKey message) = true := hsame.isRelevant ▸ hrel
    have hq := h (pre ++ f.set messageKey message :: post)
      (List.rel_append (sameButMessage_refl pre) (.cons hsame (sameButMessage_refl post)))
    rw [buildQuery_of_relevant (htake _ hg), buildQuery_of_relevant (htake _ hrel)] at hq
    have hconcept := intercalate_replace (List.append_cancel_right (List.append_cancel_left hq))
    have hnew : (f.set messageKey message).get messageKey [] = message := by
      rw [TextDict.get, TextDict.get?_set_self, Option.getD_some]
    rw [concept, concept, ← hsame.code, hnew] at hconcept
    exact hm hconcept
  · intro hc findings' hs
    have hrel := forall₂_relevant hs
    have hnil : relevantFindings findings' = [] ↔ relevantFindings findings = [] := by
      rw [← List.length_eq_zero_iff, ← List.length_eq_zero_iff, hrel.length_eq]
    unfold buildQueryFromFindings
    simp only [findingConcepts_eq hrel hc, hnil]

/-- Where the messages stay out of the query, they do not change what is retrieved. -/
theorem IgnoresMessages.queryWithContext {V S : Type} {toLower : Text → Text} {findings findings' : List TextDict}
    {loanPurpose : Text} (h : IgnoresMessages toLower findings loanPurpose)
    (hs : List.Forall₂ SameButMessage findings findings') (retriever : FAISSRetriever V S) (topK : Int) :
    retriever.queryWithContext toLower findings' loanPurpose topK =
      retriever.queryWithContext toLower findings loanPurpose topK := by
  rw [FAISSRetriever.queryWithContext, h findings' hs, FAISSRetriever.queryWithContext]

/-! ## A PAN in a message -/

namespace MismatchSample

/-- A failure with a code that has none of the listed words. -/
def finding (message : Text) : TextDict :=
  ⟨[(agentNameKey, "document".toList), (findingCodeKey, "NAME_MISMATCH".toList), (severityKey, "FAIL".toList),
    (messageKey, message)], show [agentNameKey, findingCodeKey, severityKey, messageKey].Nodup by decide⟩

theorem sameButMessage_finding (m m' : Text) : SameButMessage (finding m) (finding m') := ⟨rfl, rfl, rfl⟩

def left : TextDict := finding "PAN ABCDE1234F is not of Asha Rao".toList

def right : TextDict := finding "PAN BCDEF2345G is not of Ravi Das".toList

end MismatchSample

/-- The message of a name mismatch is in the query, with the PAN and the name. -/
theorem not_ignoresMessages : ¬ ∀ (toLower : Text → Text) (findings : List TextDict) (loanPurpose : Text),
    IgnoresMessages toLower findings loanPurpose := by
  intro h
  have hs : List.Forall₂ SameButMessage [MismatchSample.left] [MismatchSample.right] :=
    .cons (MismatchSample.sameButMessage_finding _ _) .nil
  have hrel : ∀ message, (relevantFindings [MismatchSample.finding message]).take 3 =
      [] ++ MismatchSample.finding message :: [] := fun _ => rfl
  have hq := h id _ "HOME_SECURED".toList _ hs
  rw [MismatchSample.left, MismatchSample.right, buildQuery_of_relevant (hrel _), buildQuery_of_relevant (hrel _)] at hq
  have hconcept := intercalate_replace (List.append_cancel_right (List.append_cancel_left hq))
  exact absurd hconcept (by decide)

end ComplianceLoop
