import ComplianceLoop.PyLib.Backtracking
import ComplianceLoop.PyLib.Tokens
import ComplianceLoop.Retrieval.HtmlText

/-!
# The preprocessor (`retrieval/corpus/preprocessor.py`)

`preprocess` runs five steps on the text of a regulation: tables of contents and boilerplate are removed, acronyms are
expanded where they first stand as a word, references to paragraphs and clauses become references to sections, and the
white space is cleaned. `WordChars` is `\w`.
-/

set_option autoImplicit false

namespace ComplianceLoop

open PyLib

/-! ## Tables of contents and boilerplate -/

/-- A pattern of the characters of `t` in either case. -/
def ignoringCase (t : String) : Pattern := .plain (.word t.toList)

/-- `\s+` and `\s*`. -/
def someSpace : Pattern := .plain (.some isSpace)

def manySpace : Pattern := .plain (.many isSpace)

/-- The patterns one behind the other. -/
def sequence : List Pattern → Pattern
  | [] => .plain (.bound fun _ _ => true)
  | [r] => r
  | r :: rs => .cat r (sequence rs)

/-- `_TOC_PATTERN`. -/
def tocPattern (W : WordChars) : Pattern :=
  sequence
    [.alt (sequence [ignoringCase "Table", someSpace, ignoringCase "of", someSpace, ignoringCase "Contents"])
        (.alt (sequence [ignoringCase "CONTENT", .plain (.opt (.word "S".toList))]) (ignoringCase "INDEX")),
      manySpace, .plain (.char (· = '\n')),
      .atLeast 3 (.cat (.plain (.some fun c => W.isWord c || isSpace c || c = '.')) (.plain (.char (· = '\n'))))]

/-- `_BOILERPLATE_PATTERNS`. -/
def boilerplatePatterns : List Pattern :=
  [sequence [ignoringCase "Reserve Bank of India", manySpace, .plain (.opt (.char (· = ','))), manySpace,
      ignoringCase "Central Office", .lazyAny, ignoringCase "Mumbai", manySpace,
      .plain (.char fun c => c = '-' || c = '\u2013'), manySpace, ignoringCase "400", manySpace, ignoringCase "001"],
    sequence [ignoringCase "Yours", someSpace, ignoringCase "faithfully", .lazyAny,
      .alt (ignoringCase "General Manager") (.alt (ignoringCase "Chief General Manager")
        (ignoringCase "Deputy Governor"))],
    sequence [ignoringCase "This circular", .lazyAny, ignoringCase "Please", someSpace, ignoringCase "acknowledge",
      someSpace, ignoringCase "receipt"],
    sequence [ignoringCase "This Master Circular consolidates", .lazyAny,
      .alt (ignoringCase "deleted") (.alt (ignoringCase "cancelled") (ignoringCase "withdrawn")),
      .plain (.char (· = '.'))]]

/-- `_remove_table_of_contents`. -/
def removeTableOfContents (W : WordChars) (text : Text) : Text := (tocPattern W).remove text

/-- `_remove_boilerplate`. -/
def removeBoilerplate (text : Text) : Text := boilerplatePatterns.foldl (fun t r => r.remove t) text

/-! ## Acronyms -/

/-- `ACRONYM_EXPANSIONS`. -/
def acronymExpansions : List (Text × Text) :=
  [("NBFC", "Non-Banking Financial Company (NBFC)"), ("KYC", "Know Your Customer (KYC)"),
    ("AML", "Anti-Money Laundering (AML)"), ("CFT", "Combating Financing of Terrorism (CFT)"),
    ("FOIR", "Fixed Obligation to Income Ratio (FOIR)"), ("LTV", "Loan to Value (LTV)"), ("NTH", "Net Take-Home (NTH)"),
    ("CIBIL", "Credit Information Bureau India Limited (CIBIL)"),
    ("PMLA", "Prevention of Money Laundering Act (PMLA)"), ("OVD", "Officially Valid Document (OVD)"),
    ("V-CIP", "Video-based Customer Identification Process (V-CIP)"), ("SBR", "Scale Based Regulation (SBR)"),
    ("DPDP", "Digital Personal Data Protection (DPDP)"), ("RBI", "Reserve Bank of India (RBI)"),
    ("SEBI", "Securities and Exchange Board of India (SEBI)"), ("NPA", "Non-Performing Asset (NPA)"),
    ("CRAR", "Capital to Risk-weighted Asset Ratio (CRAR)"), ("IRB", "Internal Ratings-Based (IRB)"),
    ("EMI", "Equated Monthly Instalment (EMI)"), ("DTI", "Debt-to-Income (DTI)"),
    ("PAN", "Permanent Account Number (PAN)"), ("UIDAI", "Unique Identification Authority of India (UIDAI)"),
    ("MHA", "Ministry of Home Affairs (MHA)"), ("OFAC", "Office of Foreign Assets Control (OFAC)"),
    ("FATF", "Financial Action Task Force (FATF)")].map fun p => (p.1.toList, p.2.toList)

/-- `\b` + `re.escape(acronym)` + `\b`. -/
def acronymPattern (W : WordChars) (acronym : Text) : Regex := .delimited W.isWord (.literal acronym)

/-- The body of the loop of `_expand_acronyms`: the text and the acronyms that have been expanded. -/
def expandAcronym (W : WordChars) (s : Text × List Text) (row : Text × Text) : Text × List Text :=
  match (acronymPattern W row.1).search s.1 with
  | some (n, m) => (s.1.take n ++ row.2 ++ s.1.drop (n + m), s.2 ++ [row.1])
  | none => s

/-- `_expand_acronyms` with a given table. -/
def expandWith (W : WordChars) (table : List (Text × Text)) (text : Text) : Text × List Text :=
  table.foldl (expandAcronym W) (text, [])

/-- `_expand_acronyms`. -/
def expandAcronyms (W : WordChars) (text : Text) : Text × List Text := expandWith W acronymExpansions text

/-! ## References and white space -/

/-- `\bword\s+`. -/
def referenceFront (W : WordChars) (word : Text) : Regex :=
  .cat (.boundary W.isWord) (.cat (.literal word) (.some isSpace))

/-- `_normalise_section_numbers`. -/
def normaliseSectionNumbers (W : WordChars) (text : Text) : Text :=
  let text := (referenceFront W "Para".toList).subGroup
    (.cat (.some isDecimal) (.cat (.char (· = '.')) (.some isDecimal))) "Section ".toList text
  (referenceFront W "Clause".toList).subGroup (.some isDecimal) "Section ".toList text

/-- `_clean_final`. -/
def cleanFinal (text : Text) : Text := strip (collapseNewlines (collapseSpaces text))

/-! ## The whole -/

structure PreprocessedDocument where
  text : Text
  sourceDocumentId : Text
  sourceUrl : Text
  charCount : Nat
  boilerplateRemoved : Int
  acronymsExpanded : List Text

/-- The switches of `preprocess`. -/
structure PreprocessSwitches where
  removeBoilerplate : Bool := true
  expandAcronyms : Bool := true
  removeToc : Bool := true

/-- `preprocess`. -/
def preprocess (W : WordChars) (text sourceDocumentId sourceUrl : Text) (switches : PreprocessSwitches) :
    PreprocessedDocument :=
  let originalLen := text.length
  let text := if switches.removeToc then removeTableOfContents W text else text
  let text := if switches.removeBoilerplate then removeBoilerplate text else text
  let (text, expanded) := if switches.expandAcronyms then expandAcronyms W text else (text, [])
  let text := cleanFinal (normaliseSectionNumbers W text)
  { text := text
    sourceDocumentId := sourceDocumentId
    sourceUrl := sourceUrl
    charCount := text.length
    boilerplateRemoved := max 0 ((originalLen : Int) - text.length)
    acronymsExpanded := expanded }

end ComplianceLoop
