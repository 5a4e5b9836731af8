import ComplianceLoop.PyLib.Words

/-!
# Text of a regulation page (`retrieval/corpus/html_extractor.py`)

The text nodes of the content element are stripped, joined with newlines and cleaned. The cleaning works line by line,
but for the last step: a line of up to three characters that does not start with a letter is left out. So the words of
the result are those of the kept lines of every text node (`words_extractText`).

`isAlpha` is `str.isalpha` of one character; its table of letters does not matter here.
-/

set_option autoImplicit false

namespace ComplianceLoop

open PyLib

/-! ## The cleaning -/

/-- The typographic characters, each with what it becomes. -/
def replacements : List (Char × Text) :=
  [('\u00a0', [' ']), ('\u2013', ['-']), ('\u2014', ['-', '-']), ('\u2018', ['\'']), ('\u2019', ['\'']),
    ('\u201c', ['"']), ('\u201d', ['"']), ('\u00ad', [])]

def normalise (text : Text) : Text := replacements.foldl (fun t r => replaceAll [r.1] r.2 t) text

/-- `[\x00-\x08\x0b\x0c\x0e-\x1f\x7f]`. -/
def isControl (c : Char) : Bool :=
  c.toNat ≤ 0x08 || c.toNat = 0x0b || c.toNat = 0x0c || (0x0e ≤ c.toNat && c.toNat ≤ 0x1f) || c.toNat = 0x7f

def removeControls (text : Text) : Text := (Regex.char isControl).sub [] text

/-- `[ \t]`. -/
def isBlankChar (c : Char) : Bool := c = ' ' || c = '\t'

def collapseSpaces (text : Text) : Text := (Regex.atLeast isBlankChar 2).sub [' '] text

def collapseNewlines (text : Text) : Text := (Regex.atLeast (· = '\n') 3).sub ['\n', '\n'] text

/-- A line that is not just punctuation or a number. -/
def keepLine (isAlpha : Char → Bool) (line : Text) : Bool :=
  3 < (strip line).length || (strip line).head?.any isAlpha

/-- `_clean_html_text`. -/
def cleanHtmlText (isAlpha : Char → Bool) (text : Text) : Text :=
  let text := collapseNewlines (collapseSpaces (removeControls (normalise text)))
  strip (['\n'].intercalate ((lines text).filter (keepLine isAlpha)))

/-- `content.get_text(separator="\n", strip=True)` of the text nodes of the content element. -/
def getText (nodes : List Text) : Text := ['\n'].intercalate ((nodes.map strip).filter (· ≠ []))

/-- `extract_text_from_html(html, extract_title=False)`, from the text nodes of the content element on. -/
def extractText (isAlpha : Char → Bool) (nodes : List Text) : Text :=
  let rawText := getText nodes
  if strip rawText = [] then [] else cleanHtmlText isAlpha rawText

/-! ## Character by character -/

theorem replaceAll_single (c : Char) (r t : Text) :
    replaceAll [c] r t = t.flatMap fun d => if d = c then r else [d] := by
  induction t with
  | nil => rfl
  | cons d t ih =>
    rw [List.flatMap_cons, ← ih, replaceAll, replaceFrom]
    by_cases hd : d = c
    · rw [hd, if_pos (by simp), if_pos rfl]
      rfl
    · rw [if_neg (by simpa using fun h => hd h.symm), if_neg hd]
      rfl

theorem removeControls_eq_filter (t : Text) : removeControls t = t.filter (!isControl ·) := by
  have hfrom : ∀ (t : Text) (prev : Option Char),
      (Regex.char isControl).subFrom [] 0 prev t = t.filter (!isControl ·) := by
    intro t
    induction t with
    | nil => exact fun _ => rfl
    | cons c t ih =>
      intro prev
      cases hc : isControl c with
      | true =>
        have hm : (Regex.char isControl).matchPred prev (c :: t) = some 0 := by
          simp [Regex.matchPred, Regex.ends, hc]
        rw [Regex.subFrom_of_some hm, ih, List.filter_cons_of_neg (by simp [hc]), List.nil_append]
      | false =>
        have hm : (Regex.char isControl).matchPred prev (c :: t) = none := by
          simp [Regex.matchPred, Regex.ends, hc]
        rw [Regex.subFrom_of_none hm, ih, List.filter_cons_of_pos (by simp [hc])]
  rw [removeControls, Regex.sub_eq_subFrom, hfrom]

/-- The characters of a text after the cleaning of characters. -/
def cleanChars (t : Text) : Text := removeControls (normalise t)

theorem normalise_append (s t : Text) : normalise (s ++ t) = normalise s ++ normalise t := by
  have hfold : ∀ (rs : List (Char × Text)) (s t : Text), rs.foldl (fun t r => replaceAll [r.1] r.2 t) (s ++ t) =
      rs.foldl (fun t r => replaceAll [r.1] r.2 t) s ++ rs.foldl (fun t r => replaceAll [r.1] r.2 t) t := by
    intro rs
    induction rs with
    | nil => exact fun _ _ => rfl
    | cons r rs ih =>
      intro s t
      rw [List.foldl_cons, List.foldl_cons, List.foldl_cons, ← ih, replaceAll_single, replaceAll_single,
        replaceAll_single, List.flatMap_append]
  exact hfold replacements s t

theorem cleanChars_append (s t : Text) : cleanChars (s ++ t) = cleanChars s ++ cleanChars t := by
  simp only [cleanChars, normalise_append, removeControls_eq_filter, List.filter_append]

theorem cleanChars_cons (c : Char) (t : Text) : cleanChars (c :: t) = cleanChars [c] ++ cleanChars t :=
  cleanChars_append [c] t

theorem cleanChars_nil : cleanChars [] = [] := by
  simp [cleanChars, normalise, replacements, removeControls_eq_filter, replaceAll_single]

/-- A character that is in no replacement. -/
theorem normalise_of_notMem {c : Char} (h : c ∉ replacements.map Prod.fst) : normalise [c] = [c] := by
  have hfold : ∀ rs : List (Char × Text), c ∉ rs.map Prod.fst →
      rs.foldl (fun t r => replaceAll [r.1] r.2 t) [c] = [c] := by
    intro rs
    induction rs with
    | nil => exact fun _ => rfl
    | cons r rs ih =>
      intro h
      rw [List.map_cons, List.mem_cons, not_or] at h
      rw [List.foldl_cons, replaceAll_single]
      simpa [h.1] using ih h.2
  exact hfold replacements h

theorem cleanChars_of_notMem {c : Char} (h : c ∉ replacements.map Prod.fst) :
    cleanChars [c] = if isControl c then [] else [c] := by
  rw [cleanChars, normalise_of_notMem h, removeControls_eq_filter]
  cases hc : isControl c <;> simp [hc]

theorem cleanChars_newline : cleanChars ['\n'] = ['\n'] := by
  rw [cleanChars_of_notMem (by decide), if_neg (by decide)]

/-- No other character becomes a newline. -/
theorem newline_notMem_cleanChars {t : Text} (h : '\n' ∉ t) : '\n' ∉ cleanChars t := by
  induction t with
  | nil => rw [cleanChars_nil]; exact List.not_mem_nil
  | cons c t ih =>
    rw [List.mem_cons, not_or] at h
    rw [cleanChars_cons, List.mem_append, not_or]
    refine ⟨?_, ih h.2⟩
    by_cases hc : c ∈ replacements.map Prod.fst
    · have hall : ∀ r ∈ replacements, '\n' ∉ cleanChars [r.1] := by decide
      obtain ⟨r, hr, rfl⟩ := List.mem_map.mp hc
      exact hall r hr
    · rw [cleanChars_of_notMem hc]
      split
      · exact List.not_mem_nil
      · simpa using h.1

/-- White space becomes white space. -/
theorem isSpace_cleanChars {t : Text} (h : ∀ c ∈ t, isSpace c = true) : ∀ c ∈ cleanChars t, isSpace c = true := by
  induction t with
  | nil => rw [cleanChars_nil]; exact List.forall_mem_nil _
  | cons c t ih =>
    obtain ⟨hc, ht⟩ := List.forall_mem_cons.mp h
    rw [cleanChars_cons, List.forall_mem_append]
    refine ⟨?_, ih ht⟩
    by_cases hm : c ∈ replacements.map Prod.fst
    · have hall : ∀ r ∈ replacements, isSpace r.1 = true → (cleanChars [r.1]).all isSpace = true := by decide
      obtain ⟨r, hr, rfl⟩ := List.mem_map.mp hm
      exact List.all_eq_true.mp (hall r hr hc)
    · rw [cleanChars_of_notMem hm]
      split
      · exact List.forall_mem_nil _
      · exact List.forall_mem_singleton.mpr hc

/-- White space other than a control character does not vanish. -/
theorem cleanChars_space_ne_nil {c : Char} (hc : isSpace c = true) (hn : isControl c = false) :
    cleanChars [c] ≠ [] := by
  by_cases hm : c ∈ replacements.map Prod.fst
  · have hall : ∀ r ∈ replacements, isSpace r.1 = true → cleanChars [r.1] ≠ [] := by decide
    obtain ⟨r, hr, rfl⟩ := List.mem_map.mp hm
    exact hall r hr hc
  · rw [cleanChars_of_notMem hm, hn]
    exact List.cons_ne_nil _ _

/-! ## Line by line -/

theorem collapseSpaces_eq (t : Text) : collapseSpaces t = mapRuns isBlankChar (Regex.replaceLong 2 [' ']) t :=
  Regex.sub_atLeast (by decide) [' '] t

theorem isSpace_of_isBlankChar {c : Char} (h : isBlankChar c = true) : isSpace c = true := by
  simp only [isBlankChar, Bool.or_eq_true, decide_eq_true_eq] at h
  rcases h with rfl | rfl <;> decide

theorem isBlankChar_of_not_isSpace {c : Char} (h : isSpace c = false) : isBlankChar c = false := by
  by_contra hb
  rw [isSpace_of_isBlankChar (by simpa using hb)] at h
  cases h

/-- A collapsed run is white space. -/
theorem blank_of_replaceLong {r : Text} (hr : ∀ c ∈ r, isBlankChar c = true) :
    ∀ c ∈ Regex.replaceLong 2 [' '] r, isBlankChar c = true := by
  unfold Regex.replaceLong
  split
  · exact List.forall_mem_singleton.mpr rfl
  · exact hr

/-- A line after the cleaning of characters and spaces. -/
def cleanLine (line : Text) : Text := collapseSpaces (cleanChars line)

/-- The words of a line, if it is kept. -/
def lineWords (isAlpha : Char → Bool) (line : Text) : List Text :=
  if keepLine isAlpha (cleanLine line) then words (cleanLine line) else []

/-- The words of the kept lines of a text. -/
def textWords (isAlpha : Char → Bool) (text : Text) : List Text := (lines text).flatMap (lineWords isAlpha)

/-- Collapsing the spaces does not change the words. -/
theorem words_cleanLine (line : Text) : words (cleanLine line) = words (cleanChars line) := by
  rw [cleanLine, collapseSpaces_eq]
  refine mapRuns_invariant (fun s r t hne hr => ?_) (fun r hne hr => ?_) _
  · exact words_append_spaces hne (fun c hc => isSpace_of_isBlankChar (hr c hc)) s t
  · refine ⟨?_, blank_of_replaceLong hr⟩
    unfold Regex.replaceLong
    split
    · exact List.cons_ne_nil _ _
    · exact hne

/-- The lines of the cleaned text are the cleaned lines. -/
theorem lines_collapseSpaces (text : Text) :
    lines (collapseSpaces (cleanChars text)) = (lines text).map cleanLine := by
  refine lines_map (g := cleanLine) (fun s t => ?_) (fun s hs => ?_) text
  · rw [cleanLine, cleanLine, cleanLine, cleanChars_append, cleanChars_cons, cleanChars_newline, List.singleton_append,
      collapseSpaces_eq, collapseSpaces_eq, collapseSpaces_eq, mapRuns_append (by decide)]
  · rw [cleanLine, collapseSpaces_eq]
    have hmem := mem_mapRuns (q := (· ≠ '\n')) (p := isBlankChar) (f := Regex.replaceLong 2 [' '])
      (fun r _ hr c hc => ?_) (t := cleanChars s) fun c hc => ?_
    · exact fun h => hmem '\n' h rfl
    · rintro rfl
      exact absurd (blank_of_replaceLong hr _ hc) (by decide)
    · rintro rfl
      exact newline_notMem_cleanChars hs hc

theorem flatMap_filter {α β : Type} (q : α → Bool) (f : α → List β) (l : List α) :
    (l.filter q).flatMap f = l.flatMap fun x => if q x then f x else [] := by
  induction l with
  | nil => rfl
  | cons x l ih =>
    rw [List.flatMap_cons, ← ih]
    cases hx : q x <;> simp [hx]

/-- Lines of which the empty ones count for nothing, with runs of newlines shortened. -/
theorem flatMap_lines_collapseNewlines {β : Type} {w : Text → List β} (hw : w [] = []) (text : Text) :
    (lines (collapseNewlines text)).flatMap w = (lines text).flatMap w := by
  have hnew : ∀ s t : Text, (lines (s ++ '\n' :: t)).flatMap w = (lines s).flatMap w ++ (lines t).flatMap w := by
    intro s t
    rw [lines_append_newline, List.flatMap_append]
  have hnil : (lines []).flatMap w = [] := by simp [lines, hw]
  have hrun : ∀ (r t : Text), (∀ c ∈ r, decide (c = '\n') = true) →
      (lines (r ++ t)).flatMap w = (lines t).flatMap w := by
    intro r t hr
    induction r with
    | nil => rfl
    | cons c r ih =>
      obtain ⟨hc, hr⟩ := List.forall_mem_cons.mp hr
      have := hnew [] (r ++ t)
      rw [hnil, List.nil_append, List.nil_append, ih hr] at this
      rwa [of_decide_eq_true hc, List.cons_append]
  rw [collapseNewlines, Regex.sub_atLeast (by decide)]
  refine mapRuns_invariant (F := fun t => (lines t).flatMap w) (fun s r t hne hr => ?_) (fun r hne hr => ?_) text
  · obtain ⟨c, r, rfl⟩ := List.exists_cons_of_ne_nil hne
    obtain ⟨hc, hr⟩ := List.forall_mem_cons.mp hr
    rw [of_decide_eq_true hc, List.cons_append]
    exact (hnew s (r ++ t)).trans (by rw [hrun r t hr])
  · unfold Regex.replaceLong
    split
    · exact ⟨List.cons_ne_nil _ _, by simp⟩
    · exact ⟨hne, hr⟩

/-- The words of the cleaned text are those of its kept lines. -/
theorem words_cleanHtmlText (isAlpha : Char → Bool) (text : Text) :
    words (cleanHtmlText isAlpha text) = textWords isAlpha text := by
  have hempty : (if keepLine isAlpha [] then words [] else []) = [] := by
    rw [words_nil, ite_self]
  rw [cleanHtmlText, words_strip, words_intercalate, flatMap_filter,
    flatMap_lines_collapseNewlines (w := fun l => if keepLine isAlpha l then words l else []) hempty]
  show (lines (collapseSpaces (cleanChars text))).flatMap _ = _
  rw [lines_collapseSpaces, textWords, List.flatMap_map]
  rfl

/-! ## Node by node -/

/-- A line counts by what `strip` leaves of it. -/
theorem lineWords_congr {isAlpha : Char → Bool} {a b : Text} (h : strip (cleanLine a) = strip (cleanLine b)) :
    lineWords isAlpha a = lineWords isAlpha b := by
  rw [lineWords, lineWords, keepLine, keepLine, h, ← words_strip (cleanLine a), h, words_strip]

theorem strip_cleanLine (line : Text) : strip (cleanLine line) = collapseSpaces (strip (cleanChars line)) := by
  rw [cleanLine, collapseSpaces_eq, collapseSpaces_eq]
  refine strip_mapRuns (fun c => isBlankChar_of_not_isSpace) (fun r _ hr c hc => ?_) _
  exact isSpace_of_isBlankChar (blank_of_replaceLong hr c hc)

/-- White space at the front of a line does not count. -/
theorem lineWords_spaces_append {isAlpha : Char → Bool} {l : Text} (hl : ∀ c ∈ cleanChars l, isSpace c = true)
    (line : Text) : lineWords isAlpha (l ++ line) = lineWords isAlpha line := by
  refine lineWords_congr ?_
  have := strip_append_spaces hl (List.forall_mem_nil _) (cleanChars line)
  rw [List.append_nil] at this
  rw [strip_cleanLine, strip_cleanLine, cleanChars_append, this]

/-- White space at the end of a line does not count. -/
theorem lineWords_append_spaces {isAlpha : Char → Bool} {r : Text} (hr : ∀ c ∈ cleanChars r, isSpace c = true)
    (line : Text) : lineWords isAlpha (line ++ r) = lineWords isAlpha line := by
  refine lineWords_congr ?_
  have := strip_append_spaces (List.forall_mem_nil _) hr (cleanChars line)
  rw [List.nil_append] at this
  rw [strip_cleanLine, strip_cleanLine, cleanChars_append, this]

theorem lineWords_nil (isAlpha : Char → Bool) : lineWords isAlpha [] = [] := by
  rw [lineWords, words_cleanLine, cleanChars_nil, words_nil, ite_self]

theorem textWords_append_newline (isAlpha : Char → Bool) (s t : Text) :
    textWords isAlpha (s ++ '\n' :: t) = textWords isAlpha s ++ textWords isAlpha t := by
  rw [textWords, lines_append_newline, List.flatMap_append, textWords, textWords]

theorem textWords_of_line (isAlpha : Char → Bool) {t : Text} (h : '\n' ∉ t) :
    textWords isAlpha t = lineWords isAlpha t := by
  rw [textWords, lines_of_notMem h, List.flatMap_singleton]

theorem textWords_nil (isAlpha : Char → Bool) : textWords isAlpha [] = [] := by
  rw [textWords_of_line isAlpha List.not_mem_nil, lineWords_nil]

/-- The line of `u` that a text behind it goes on. -/
def lastLine (u : Text) : Text := u.rtakeWhile (· ≠ '\n')

/-- The line of `v` that a text before it goes on. -/
def firstLine (v : Text) : Text := v.takeWhile (· ≠ '\n')

theorem newline_notMem_lastLine (u : Text) : '\n' ∉ lastLine u := fun h => by simpa using List.mem_rtakeWhile_imp h

theorem newline_notMem_firstLine (v : Text) : '\n' ∉ firstLine v := fun h => by simpa using List.mem_takeWhile_imp h

/-- What stands before the last line of a text counts on its own. -/
theorem exists_before (isAlpha : Char → Bool) (u : Text) :
    ∃ ws, ∀ y, textWords isAlpha (u ++ y) = ws ++ textWords isAlpha (lastLine u ++ y) := by
  have hu : u.rdropWhile (· ≠ '\n') ++ lastLine u = u := List.rdropWhile_append_rtakeWhile
  rcases List.eq_nil_or_concat' (u.rdropWhile (· ≠ '\n')) with h | ⟨a, c, h⟩
  · rw [h, List.nil_append] at hu
    exact ⟨[], fun y => by rw [hu, List.nil_append]⟩
  · have hc : c = '\n' := by
      have := List.rdropWhile_last_not (· ≠ '\n') u (by rw [h]; simp)
      simp only [h, List.getLast_append_singleton] at this
      simpa using this
    refine ⟨textWords isAlpha a, fun y => ?_⟩
    rw [← textWords_append_newline, ← hc]
    nth_rewrite 1 [← hu]
    rw [h, List.append_assoc, List.append_assoc, List.singleton_append]

/-- What stands behind the first line of a text counts on its own. -/
theorem exists_behind (isAlpha : Char → Bool) (v : Text) :
    ∃ ws, ∀ x, textWords isAlpha (x ++ v) = textWords isAlpha (x ++ firstLine v) ++ ws := by
  have hv : firstLine v ++ v.dropWhile (· ≠ '\n') = v := List.takeWhile_append_dropWhile
  cases h : v.dropWhile (· ≠ '\n') with
  | nil =>
    rw [h, List.append_nil] at hv
    exact ⟨[], fun x => by rw [hv, List.append_nil]⟩
  | cons c b =>
    have hc : c = '\n' := by
      have := List.head?_dropWhile_not (· ≠ '\n') v
      rw [h, List.head?_cons] at this
      simpa using this
    refine ⟨textWords isAlpha b, fun x => ?_⟩
    rw [← textWords_append_newline, ← hc]
    nth_rewrite 1 [← hv]
    rw [h, List.append_assoc]

/-- White space before a text does not count. -/
theorem textWords_spaces_append (isAlpha : Char → Bool) {l : Text} (hl : ∀ c ∈ l, isSpace c = true) (t : Text) :
    textWords isAlpha (l ++ t) = textWords isAlpha t := by
  induction l with
  | nil => rfl
  | cons c l ih =>
    obtain ⟨hc, hl⟩ := List.forall_mem_cons.mp hl
    rw [List.cons_append, ← ih hl]
    by_cases hn : c = '\n'
    · rw [hn]
      exact textWords_append_newline isAlpha [] (l ++ t)
    · obtain ⟨ws, hws⟩ := exists_behind isAlpha (l ++ t)
      have hline := newline_notMem_firstLine (l ++ t)
      have h1 := hws [c]
      have h0 := hws []
      rw [List.nil_append, List.nil_append] at h0
      have hcline : '\n' ∉ [c] ++ firstLine (l ++ t) := by simpa [eq_comm, hn] using hline
      have hsp := isSpace_cleanChars (t := [c]) (List.forall_mem_singleton.mpr hc)
      rw [h0, textWords_of_line isAlpha hline, ← lineWords_spaces_append hsp, ← textWords_of_line isAlpha hcline]
      exact h1

/-- White space behind a text does not count. -/
theorem textWords_append_right (isAlpha : Char → Bool) {r : Text} (hr : ∀ c ∈ r, isSpace c = true) (t : Text) :
    textWords isAlpha (t ++ r) = textWords isAlpha t := by
  induction r generalizing t with
  | nil => rw [List.append_nil]
  | cons c r ih =>
    obtain ⟨hc, hr⟩ := List.forall_mem_cons.mp hr
    rw [← List.singleton_append, ← List.append_assoc, ih hr]
    by_cases hn : c = '\n'
    · rw [hn, textWords_append_newline, textWords_nil, List.append_nil]
    · obtain ⟨ws, hws⟩ := exists_before isAlpha t
      have hline := newline_notMem_lastLine t
      have h0 := hws []
      rw [List.append_nil, List.append_nil] at h0
      have hcline : '\n' ∉ lastLine t ++ [c] := by simpa [eq_comm, hn] using hline
      have hsp := isSpace_cleanChars (t := [c]) (List.forall_mem_singleton.mpr hc)
      rw [hws, h0, textWords_of_line isAlpha hline, ← lineWords_append_spaces hsp, ← textWords_of_line isAlpha hcline]

theorem textWords_strip (isAlpha : Char → Bool) (t : Text) : textWords isAlpha (strip t) = textWords isAlpha t := by
  obtain ⟨l, r, ht, hl, hr, -, -⟩ := exists_strip t
  nth_rewrite 2 [ht]
  rw [textWords_spaces_append isAlpha hl, textWords_append_right isAlpha hr]

theorem flatMap_lines_textWords (isAlpha : Char → Bool) (ts : List Text) :
    textWords isAlpha (['\n'].intercalate ts) = ts.flatMap (textWords isAlpha) :=
  flatMap_lines_intercalate (lineWords_nil isAlpha) ts

/-- **The words of the extraction are those of the kept lines of each text node.** -/
theorem words_extractText (isAlpha : Char → Bool) (nodes : List Text) :
    words (extractText isAlpha nodes) = nodes.flatMap (textWords isAlpha) := by
  have hjoin : textWords isAlpha (getText nodes) = nodes.flatMap (textWords isAlpha) := by
    rw [getText, flatMap_lines_textWords, flatMap_filter, List.flatMap_map]
    refine congrArg (nodes.flatMap ·) (funext fun t => ?_)
    by_cases ht : strip t = []
    · have hnil : textWords isAlpha t = [] := by rw [← textWords_strip, ht, textWords_nil]
      rw [ht, hnil]
      rfl
    · rw [decide_eq_true ht, if_pos rfl, textWords_strip]
  rw [extractText, ← hjoin]
  split
  · rename_i h
    rw [words_nil, ← textWords_strip, h, textWords_nil]
  · rw [words_cleanHtmlText]

end ComplianceLoop
