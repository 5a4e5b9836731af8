import ComplianceLoop.PyLib.BrokenWords
import ComplianceLoop.Retrieval.CleanText

/-!
# Text of a regulation in PDF (`retrieval/corpus/pdf_extractor.py`)

What pdfminer has extracted is cleaned: typographic characters and page breaks are replaced, headers and footers
removed, words that are broken at the end of a line put together, and the white space cleaned. pdfminer is a parameter:
its text, or the exception that it raises.

A hyphen at the end of a line is left in the result exactly when two of them stood around a single character of a word,
and then a second cleaning would go on (`cleanExtractedText_settled`).
-/

set_option autoImplicit false

namespace ComplianceLoop

open PyLib

/-! ## The cleaning -/

/-- `replacements` of `_clean_extracted_text`. -/
def pdfReplacements : List (Char × Text) :=
  [('\ufb01', ['f', 'i']), ('\ufb02', ['f', 'l']), ('\u2013', ['-']), ('\u2014', ['-', '-']), ('\u2018', ['\'']),
    ('\u2019', ['\'']), ('\u201c', ['"']), ('\u201d', ['"']), ('\u00a0', [' ']), ('\u00ad', []),
    ('\x0c', ['\n', '\n'])]

/-- `$` of a pattern with `re.MULTILINE`. -/
def lineEnd : Regex := .bound fun _ next => next.all (· = '\n')

/-- `^\s*` + pattern + `\s*$`. -/
def ownLine (r : Regex) : Regex :=
  .cat .lineStart (.cat (.many isSpace) (.cat r (.cat (.many isSpace) lineEnd)))

/-- `_HEADER_FOOTER_PATTERNS`. -/
def headerFooterPatterns : List Regex :=
  [ownLine (.cat (.word "Page".toList) (.cat (.some isSpace) (.cat (.some isDecimal) (.cat (.some isSpace)
      (.cat (.word "of".toList) (.cat (.some isSpace) (.some isDecimal))))))),
    ownLine (.literal "Reserve Bank of India".toList),
    ownLine (.word "www.rbi.org.in".toList),
    ownLine (.cat (.char isDecimal) (.cat (.opt (.char isDecimal)) (.opt (.char isDecimal)))),
    .cat (.literal "RBI/".toList) (.cat (.times isDecimal 4) (.cat (.char (· = '-')) (.cat (.times isDecimal 2)
      (.cat (.char (· = '/')) (.some isDecimal)))))]

/-- `-\s*\n\s*`. -/
def lineBreak : Regex :=
  .cat (.char (· = '-')) (.cat (.many isSpace) (.cat (.char (· = '\n')) (.many isSpace)))

/-- The text before broken words are put together. -/
def pageText (text : Text) (stripHeadersFooters : Bool) : Text :=
  let text := pdfReplacements.foldl (fun t r => replaceAll [r.1] r.2 t) text
  if stripHeadersFooters then headerFooterPatterns.foldl (fun t r => r.sub [] t) text else text

/-- `_clean_extracted_text`. -/
def cleanExtractedText (W : WordChars) (text : Text) (stripHeadersFooters : Bool) : Text :=
  strip (collapseNewlines (collapseSpaces (rejoin W.isWord lineBreak (pageText text stripHeadersFooters))))

/-! ## The extraction -/

/-- `PDFExtractionError` and `ScannedPDFError`. -/
inductive PdfError where
  | extraction (msg : Text)
  | scanned (msg : Text)
  deriving DecidableEq

def minExtractableChars : Nat := 100

/-- `extract_text_from_pdf`, from the text that pdfminer extracts. -/
def extractTextFromPdf (W : WordChars) (extracted : Except PyExc Text) (stripHeadersFooters : Bool) :
    Except PdfError Text :=
  match extracted with
  | .error e => .error (.extraction ("pdfminer failed to extract text: ".toList ++ e.msg))
  | .ok rawText =>
    if (strip rawText).length < minExtractableChars then
      .error (.scanned ("PDF text extraction yielded only ".toList ++ Nat.toDigits 10 (strip rawText).length ++
        (" characters. This PDF may be scanned (image-based). " ++
          "OCR is not supported — obtain the text version of this circular.").toList))
    else .ok (cleanExtractedText W rawText stripHeadersFooters)

/-- What is returned is a text of a hundred characters at least, cleaned. -/
theorem extractTextFromPdf_eq_ok {W : WordChars} {extracted : Except PyExc Text} {stripHeadersFooters : Bool}
    {text : Text} : extractTextFromPdf W extracted stripHeadersFooters = .ok text ↔
      ∃ rawText, extracted = .ok rawText ∧ minExtractableChars ≤ (strip rawText).length ∧
        text = cleanExtractedText W rawText stripHeadersFooters := by
  unfold extractTextFromPdf
  cases extracted with
  | error e => simp
  | ok rawText =>
    dsimp only
    split
    · rename_i hshort
      simp only [reduceCtorEq, Except.ok.injEq, exists_eq_left', false_iff, not_and]
      omega
    · rename_i hlong
      simp only [Except.ok.injEq, exists_eq_left', not_lt.mp hlong, true_and, eq_comm]

/-! ## Hyphens at the end of a line -/

/-- A hyphen and white space with a newline. -/
def Hyphenation (u : Text) : Prop := ∃ ws, u = '-' :: ws ∧ '\n' ∈ ws ∧ ∀ c ∈ ws, isSpace c = true

/-- A word of the text is broken at the end of a line. -/
def BrokenWord (W : WordChars) (text : Text) : Prop := Broken W.isWord Hyphenation text

/-- A single character of a word stands between two breaks. -/
def BrokenTwice (W : WordChars) (text : Text) : Prop := Doubled W.isWord Hyphenation text

theorem matches_lineBreak {prev next : Option Char} {u : Text} : lineBreak.Matches prev u next ↔ Hyphenation u := by
  simp only [lineBreak, Regex.Matches]
  constructor
  · rintro ⟨_, _, rfl, ⟨c, rfl, hc⟩, x, _, rfl, hx, _, y, rfl, ⟨d, rfl, hd⟩, hy⟩
    obtain rfl := of_decide_eq_true hc
    obtain rfl := of_decide_eq_true hd
    refine ⟨x ++ ('\n' :: y), rfl, by simp, fun e he => ?_⟩
    rcases List.mem_append.mp he with he | he
    · exact hx e he
    · rcases List.mem_cons.mp he with rfl | he
      · decide
      · exact hy e he
  · rintro ⟨ws, rfl, hmem, hws⟩
    obtain ⟨x, y, rfl⟩ := List.append_of_mem hmem
    refine ⟨['-'], _, rfl, ⟨'-', rfl, rfl⟩, x, '\n' :: y, rfl, fun c hc => hws c (List.mem_append_left _ hc), ['\n'], y,
      rfl, ⟨'\n', rfl, rfl⟩, fun c hc => hws c (List.mem_append_right _ (List.mem_cons_of_mem _ hc))⟩

theorem isWord_hyphen (W : WordChars) : W.isWord '-' = false := by
  rw [W.ascii '-' (by decide)]
  decide

theorem separates_lineBreak (W : WordChars) : Separates W.isWord lineBreak Hyphenation where
  iff _ _ _ := matches_lineBreak
  ne_nil _ hu := by
    obtain ⟨ws, rfl, -⟩ := hu
    exact List.cons_ne_nil _ _
  notWord u hu c hc := by
    obtain ⟨ws, rfl, -, hws⟩ := hu
    rcases List.mem_cons.mp hc with rfl | hc
    · exact isWord_hyphen W
    · exact W.space c (hws c hc)

/-! ## White space -/

section

variable {W : WordChars} {p : Char → Bool} {F : Text → Text}

/-- Shortened white space keeps the breaks of words, and brings none. -/
theorem brokenWord_runMap_iff (hF : RunMap p F) (hp : ∀ c, p c = true → isSpace c = true)
    (hnewline : ∀ t : Text, '\n' ∈ F t ↔ '\n' ∈ t) (t : Text) : BrokenWord W (F t) ↔ BrokenWord W t := by
  have hword : ∀ {c : Char}, W.isWord c = true → p c = false := by
    intro c hc
    by_contra hpc
    rw [W.space c (hp c (Bool.not_eq_false _ ▸ hpc))] at hc
    cases hc
  have hhyphen : p '-' = false := by
    by_contra hpc
    exact absurd (hp '-' (Bool.not_eq_false _ ▸ hpc)) (by decide)
  unfold BrokenWord
  rw [broken_iff, broken_iff]
  constructor
  · rintro ⟨x, c, _, d, y, ht, hc, ⟨ws, rfl, hmem, hws⟩, hd⟩
    obtain ⟨a, t₁, rfl, -, ht₁⟩ := hF.exists_cut (hword hc) ht
    obtain ⟨z, t₂, rfl, hz, ht₂⟩ := hF.exists_cut (x := []) hhyphen ht₁
    obtain rfl := hF.eq_nil_iff.mp hz
    obtain ⟨ws', b, rfl, rfl, -⟩ := hF.exists_cut (hword hd) ht₂
    have hspace : ∀ c ∈ ws', isSpace c = true := by
      intro c hc
      cases hpc : p c with
      | true => exact hp c hpc
      | false => exact hws c ((hF.mem_iff hpc).mpr hc)
    exact ⟨a, c, '-' :: ws', d, b, rfl, hc, ⟨ws', rfl, (hnewline ws').mp hmem, hspace⟩, hd⟩
  · rintro ⟨a, c, _, d, b, rfl, hc, ⟨ws, rfl, hmem, hws⟩, hd⟩
    have hspace : ∀ c ∈ F ws, isSpace c = true := by
      intro c hc
      cases hpc : p c with
      | true => exact hp c hpc
      | false => exact hws c ((hF.mem_iff hpc).mp hc)
    refine ⟨F a, c, '-' :: F ws, d, F b, ?_, hc, ⟨F ws, rfl, (hnewline ws).mpr hmem, hspace⟩, hd⟩
    rw [hF.cut _ _ _ (hword hc), List.cons_append, hF.cons hhyphen, hF.cut _ _ _ (hword hd), List.cons_append]

/-- `strip` keeps the breaks too. -/
theorem brokenWord_strip_iff (t : Text) : BrokenWord W (strip t) ↔ BrokenWord W t := by
  have hword : ∀ {c : Char}, W.isWord c = true → isSpace c = false := by
    intro c hc
    by_contra hspace
    rw [W.space c (Bool.not_eq_false _ ▸ hspace)] at hc
    cases hc
  unfold BrokenWord
  rw [broken_iff, broken_iff]
  constructor
  · rintro ⟨a, c, u, d, b, ha, hc, hu, hd⟩
    obtain ⟨l, r, ht, -⟩ := exists_strip t
    refine ⟨l ++ a, c, u, d, b ++ r, ?_, hc, hu, hd⟩
    rw [ht, ha]
    simp only [List.append_assoc, List.cons_append]
  · rintro ⟨a, c, u, d, b, rfl, hc, hu, hd⟩
    have hself : strip (c :: (u ++ [d])) = c :: (u ++ [d]) := by
      refine strip_eq_self (fun e he => ?_) fun e he => ?_
      · obtain rfl := Option.some.inj he
        exact hword hc
      · rw [← List.cons_append, List.getLast?_concat] at he
        obtain rfl := Option.some.inj he
        exact hword hd
    have hinfix : c :: (u ++ [d]) <:+: a ++ c :: (u ++ d :: b) := ⟨a, b, by simp⟩
    obtain ⟨x, y, hxy⟩ := hself ▸ strip_infix_strip hinfix
    refine ⟨x, c, u, d, y, ?_, hc, hu, hd⟩
    rw [← hxy]
    simp only [List.append_assoc, List.cons_append, List.nil_append]

theorem newline_mem_collapseNewlines (t : Text) : '\n' ∈ collapseNewlines t ↔ '\n' ∈ t := by
  have hcount : ∀ {s : Text} {n : Nat}, 0 < n → n ≤ s.countP (· = '\n') → '\n' ∈ s := by
    intro s n hn hle
    obtain ⟨c, hc, hnew⟩ := List.countP_pos_iff.mp (Nat.lt_of_lt_of_le hn hle)
    rwa [of_decide_eq_true hnew] at hc
  rcases collapseNewlines_cases t with h | ⟨h3, h2⟩
  · rw [h]
  · exact iff_of_true (hcount (by decide) h2) (hcount (by decide) h3)

/-- The white space of the last step. -/
theorem brokenWord_cleanFinal_iff (t : Text) : BrokenWord W (cleanFinal t) ↔ BrokenWord W t := by
  have hblank : ∀ c, isBlankChar c = true → isSpace c = true := by
    intro c hc
    simp only [isBlankChar, Bool.or_eq_true, decide_eq_true_eq] at hc
    rcases hc with rfl | rfl <;> decide
  have hspaces := brokenWord_runMap_iff (W := W) runMap_collapseSpaces hblank
    (fun t => runMap_collapseSpaces.mem_iff (by decide)) t
  have hnewlines := brokenWord_runMap_iff (W := W) runMap_collapseNewlines (fun c hc => isSpace_of_isBreak hc)
    newline_mem_collapseNewlines (collapseSpaces t)
  exact (brokenWord_strip_iff _).trans (hnewlines.trans hspaces)

end

/-! ## The characters -/

/-- The characters that are replaced. -/
def replacedChars : List Char := pdfReplacements.map Prod.fst

/-- A replacement takes its character away, and brings none of the others. -/
theorem mem_foldl_replaceAll {k : Char} (rows : List (Char × Text)) (hrows : ∀ row ∈ rows, k ∉ row.2) : ∀ {t : Text},
    k ∈ rows.foldl (fun t r => replaceAll [r.1] r.2 t) t → k ∈ t ∧ k ∉ rows.map Prod.fst := by
  induction rows with
  | nil => exact fun h => ⟨h, List.not_mem_nil⟩
  | cons row rows ih =>
    intro t h
    obtain ⟨hrow, hrows⟩ := List.forall_mem_cons.mp hrows
    obtain ⟨hmem, hnot⟩ : k ∈ replaceAll [row.1] row.2 t ∧ k ∉ rows.map Prod.fst := ih hrows h
    rw [replaceAll_single, List.mem_flatMap] at hmem
    obtain ⟨d, hd, hk⟩ := hmem
    by_cases hkey : d = row.1
    · rw [if_pos hkey] at hk
      exact absurd hk hrow
    · rw [if_neg hkey, List.mem_singleton] at hk
      rw [hk, List.map_cons, List.mem_cons, not_or]
      exact ⟨hd, hkey, hk ▸ hnot⟩

theorem replaced_foldl_of_notMem (rows : List (Char × Text)) : ∀ {t : Text}, (∀ k ∈ rows.map Prod.fst, k ∉ t) →
    rows.foldl (fun t r => replaceAll [r.1] r.2 t) t = t := by
  induction rows with
  | nil => exact fun _ => rfl
  | cons row rows ih =>
    intro t h
    obtain ⟨hrow, hrows⟩ := List.forall_mem_cons.mp h
    have hsame : replaceAll [row.1] row.2 t = t := by
      have hcopy : t.flatMap (fun d => if d = row.1 then row.2 else [d]) = t.flatMap fun d => [d] := by
        refine List.flatMap_congr fun d hd => ?_
        have hkey : d ≠ row.1 := fun hkey => hrow (hkey ▸ hd)
        rw [if_neg hkey]
      rw [replaceAll_single, hcopy, List.flatMap_singleton']
    rw [List.foldl_cons, hsame, ih hrows]

theorem pageText_false (text : Text) :
    pageText text false = pdfReplacements.foldl (fun t r => replaceAll [r.1] r.2 t) text := rfl

theorem notMem_pageText (text : Text) (stripHeadersFooters : Bool) : ∀ k ∈ replacedChars,
    k ∉ pageText text stripHeadersFooters := by
  have hall : (replacedChars.all fun k => pdfReplacements.all fun row => !row.2.contains k) = true := by decide
  have hrows : ∀ k ∈ replacedChars, ∀ row ∈ pdfReplacements, k ∉ row.2 := by simpa using hall
  have hheaders : ∀ (rs : List Regex) {k : Char} {t : Text}, k ∈ rs.foldl (fun t r => r.sub [] t) t → k ∈ t := by
    intro rs
    induction rs with
    | nil => exact fun h => h
    | cons r rs ih => exact fun h => (Regex.mem_sub (ih h)).resolve_left List.not_mem_nil
  intro k hk hmem
  refine (mem_foldl_replaceAll pdfReplacements (hrows k hk) (t := text) ?_).2 hk
  unfold pageText at hmem
  cases stripHeadersFooters with
  | false => exact hmem
  | true => exact hheaders headerFooterPatterns hmem

/-- Cleaning brings blanks and newlines only. -/
theorem mem_cleanExtractedText {W : WordChars} {text : Text} {stripHeadersFooters : Bool} {c : Char}
    (h : c ∈ cleanExtractedText W text stripHeadersFooters) :
    c = ' ' ∨ c = '\n' ∨ c ∈ pageText text stripHeadersFooters := by
  have hstrip : ∀ {t : Text}, c ∈ strip t → c ∈ t := by
    intro t hc
    obtain ⟨l, r, ht, -⟩ := exists_strip t
    rw [ht]
    exact List.mem_append_right l (List.mem_append_left r hc)
  rcases Regex.mem_sub (hstrip h) with hc | hc
  · simp only [List.mem_cons, List.not_mem_nil, or_false, or_self] at hc
    exact .inr (.inl hc)
  · rcases Regex.mem_sub hc with hc | hc
    · exact .inl (List.mem_singleton.mp hc)
    · exact .inr (.inr (mem_rejoin (separates_lineBreak W) hc))

/-! ## The whole -/

section

variable (W : WordChars) (text : Text) (stripHeadersFooters : Bool)

/-- A broken word is left exactly where two breaks stood around a single character. -/
theorem brokenWord_cleanExtractedText_iff : BrokenWord W (cleanExtractedText W text stripHeadersFooters) ↔
    BrokenTwice W (pageText text stripHeadersFooters) :=
  (brokenWord_cleanFinal_iff _).trans (broken_rejoin_iff (separates_lineBreak W))

/-- The result has none of the characters that are replaced. -/
theorem pageText_cleanExtractedText : pageText (cleanExtractedText W text stripHeadersFooters) false =
    cleanExtractedText W text stripHeadersFooters := by
  rw [pageText_false]
  refine replaced_foldl_of_notMem pdfReplacements fun k hk hmem => ?_
  rcases mem_cleanExtractedText hmem with rfl | rfl | hpage
  · exact absurd hk (by decide)
  · exact absurd hk (by decide)
  · exact notMem_pageText text stripHeadersFooters k hk hpage

theorem count_hyphen_cleanFinal (t : Text) : (cleanFinal t).count '-' = t.count '-' := by
  have hstrip : ∀ t : Text, (strip t).count '-' = t.count '-' := by
    intro t
    obtain ⟨l, r, ht, hl, hr, -⟩ := exists_strip t
    have hspaces : ∀ {x : Text}, (∀ c ∈ x, isSpace c = true) → x.count '-' = 0 := fun hx =>
      List.count_eq_zero.mpr fun hmem => absurd (hx '-' hmem) (by decide)
    conv_rhs => rw [ht, List.count_append, List.count_append, hspaces hl, hspaces hr, Nat.zero_add, Nat.add_zero]
  calc (cleanFinal t).count '-'
      = (collapseNewlines (collapseSpaces t)).count '-' := hstrip _
    _ = (collapseSpaces t).count '-' := runMap_collapseNewlines.count_eq (by decide) _
    _ = t.count '-' := runMap_collapseSpaces.count_eq (by decide) t

theorem length_cleanFinal_le (t : Text) : (cleanFinal t).length ≤ t.length := by
  have hstrip : ∀ t : Text, (strip t).length ≤ t.length := by
    intro t
    obtain ⟨l, r, ht, -⟩ := exists_strip t
    have hlength := congrArg List.length ht
    rw [List.length_append, List.length_append] at hlength
    omega
  calc (cleanFinal t).length
      ≤ (collapseNewlines (collapseSpaces t)).length := hstrip _
    _ ≤ (collapseSpaces t).length := Regex.length_sub_atLeast_le (by decide) (by decide) _
    _ ≤ t.length := Regex.length_sub_atLeast_le (by decide) (by decide) t

/-- A second removal of headers and footers only takes something away. -/
theorem pageText_cleanExtractedText_sublist (again : Bool) :
    (pageText (cleanExtractedText W text stripHeadersFooters) again).Sublist
      (cleanExtractedText W text stripHeadersFooters) := by
  have hheaders : ∀ (rs : List Regex) (t : Text), (rs.foldl (fun t r => r.sub [] t) t).Sublist t := by
    intro rs
    induction rs with
    | nil => exact fun t => List.Sublist.refl t
    | cons r rs ih => exact fun t => (ih (r.sub [] t)).trans (r.sub_nil_sublist t)
  have hfalse := pageText_cleanExtractedText W text stripHeadersFooters
  cases again with
  | false => rw [hfalse]
  | true =>
    have htrue : pageText (cleanExtractedText W text stripHeadersFooters) true =
        headerFooterPatterns.foldl (fun t r => r.sub [] t)
          (pageText (cleanExtractedText W text stripHeadersFooters) false) := rfl
    rw [htrue, hfalse]
    exact hheaders _ _

/-- A text that is clean stays as it is exactly when no word of it is broken and no header or footer is in it. -/
theorem cleanExtractedText_eq_self_iff {cleaned : Text} {again : Bool} (hclean : cleanFinal cleaned = cleaned)
    (hsublist : (pageText cleaned again).Sublist cleaned) :
    cleanExtractedText W cleaned again = cleaned ↔ ¬ BrokenWord W cleaned ∧ pageText cleaned again = cleaned := by
  have hagain : cleanExtractedText W cleaned again =
      cleanFinal (rejoin W.isWord lineBreak (pageText cleaned again)) := rfl
  rw [hagain]
  constructor
  · intro hsame
    have hpage : pageText cleaned again = cleaned := by
      refine hsublist.eq_of_length_le ?_
      calc cleaned.length
          = (cleanFinal (rejoin W.isWord lineBreak (pageText cleaned again))).length := by rw [hsame]
        _ ≤ (rejoin W.isWord lineBreak (pageText cleaned again)).length := length_cleanFinal_le _
        _ ≤ (pageText cleaned again).length := length_rejoin_le (separates_lineBreak W) _
    refine ⟨fun hword => ?_, hpage⟩
    -- a second cleaning would take a hyphen away
    have hless := count_rejoin_lt (separates_lineBreak W) (fun u ⟨ws, hu, _⟩ => hu ▸ List.mem_cons_self) hword
    rw [hpage] at hsame
    rw [← count_hyphen_cleanFinal, hsame] at hless
    exact Nat.lt_irrefl _ hless
  · rintro ⟨hword, hpage⟩
    rw [hpage, rejoin_eq_self (separates_lineBreak W) hword]
    exact hclean

/-- **What the cleaning leaves of the hyphens at the end of a line, and when a second cleaning changes nothing**: when
it finds no broken word, and no header or footer if it looks for them. -/
theorem cleanExtractedText_settled :
    (BrokenWord W (cleanExtractedText W text stripHeadersFooters) ↔
        BrokenTwice W (pageText text stripHeadersFooters)) ∧
      (cleanExtractedText W (cleanExtractedText W text stripHeadersFooters) false =
          cleanExtractedText W text stripHeadersFooters ↔ ¬ BrokenTwice W (pageText text stripHeadersFooters)) ∧
        ∀ again, cleanExtractedText W (cleanExtractedText W text stripHeadersFooters) again =
            cleanExtractedText W text stripHeadersFooters ↔
          ¬ BrokenTwice W (pageText text stripHeadersFooters) ∧
            pageText (cleanExtractedText W text stripHeadersFooters) again =
              cleanExtractedText W text stripHeadersFooters := by
  have hbroken := brokenWord_cleanExtractedText_iff W text stripHeadersFooters
  have hclean : cleanFinal (cleanExtractedText W text stripHeadersFooters) =
      cleanExtractedText W text stripHeadersFooters := cleanFinal_cleanFinal _
  have hagain := fun again => cleanExtractedText_eq_self_iff W hclean
    (pageText_cleanExtractedText_sublist W text stripHeadersFooters again)
  rw [← hbroken]
  refine ⟨Iff.rfl, ?_, hagain⟩
  rw [hagain, pageText_cleanExtractedText]
  exact and_iff_left rfl

end

end ComplianceLoop
