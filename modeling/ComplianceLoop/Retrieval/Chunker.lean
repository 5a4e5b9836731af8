import ComplianceLoop.PyLib.Regex
import ComplianceLoop.Retrieval.IndexManager

/-!
# The chunker (`retrieval/chunker.py`)

`chunk_text` accumulates paragraphs until the token budget is reached, emits the window as a chunk and starts the next
one with the last paragraphs that fit the overlap budget; a paragraph above the chunk size is split at its sentences,
which are accumulated in the same way. `count_tokens` is a parameter.

`Windowed.push` is the body that the two loops have in common: append, emit when full, keep the overlap.
-/

set_option autoImplicit false

namespace ComplianceLoop

open PyLib

/-! ## Text normalisation -/

/-- `_normalise_whitespace`. -/
def normaliseWhitespace (text : Text) : Text :=
  let text := replaceAll ['\r'] ['\n'] (replaceAll ['\r', '\n'] ['\n'] text)
  let newline := Regex.char (· = '\n')
  let text := (Regex.cat newline (.cat newline (.some (· = '\n')))).sub ['\n', '\n'] text
  let blank := fun c : Char => c = ' ' || c = '\t'
  strip ((Regex.cat (.char blank) (.some blank)).sub [' '] text)

/-- `_split_into_paragraphs`. -/
def splitIntoParagraphs (text : Text) : List Text :=
  (((Regex.cat (.char (· = '\n')) (.some (· = '\n'))).split text).map strip).filter (20 < ·.length)

/-- `abbreviations`. -/
def abbreviations : List Text :=
  ["e.g.".toList, "i.e.".toList, "viz.".toList, "etc.".toList, "No.".toList, "Rs.".toList, "RBI.".toList,
    "NBFC.".toList, "KYC.".toList, "AML.".toList, "PAN.".toList, "Sec.".toList, "Art.".toList, "Fig.".toList,
    "Vol.".toList, "para.".toList]

/-- `placeholders`, in the order in which the abbreviations are protected. -/
def placeholders : List (Text × Text) :=
  abbreviations.zipIdx.map fun p => ("__ABBR".toList ++ Nat.toDigits 10 p.2 ++ "__".toList, p.1)

/-- `(?<=[.!?])\s+(?=[A-Z0-9\(])`. -/
def sentenceBreak : Regex :=
  .cat (.bound fun before _ => before.any fun c => c = '.' || c = '!' || c = '?')
    (.cat (.some isSpace) (.bound fun _ after => after.any fun c => isUpperLetter c || c.isDigit || c = '('))

/-- `_split_into_sentences`. -/
def splitIntoSentences (text : Text) : List Text :=
  let protectedText := placeholders.foldl (fun t p => replaceAll p.2 p.1 t) text
  let sentences := ((sentenceBreak.split protectedText).map fun sent =>
    strip (placeholders.foldl (fun t p => replaceAll p.1 p.2 t) sent)).filter (!·.isEmpty)
  if sentences.isEmpty then [text] else sentences

/-! ## Section headings -/

/-- `_SECTION_HEADING_PATTERNS`. -/
def sectionHeadingPatterns : List Regex :=
  let numeral := fun c => (['I', 'V', 'X'].map foldCase).contains (foldCase c)
  let heading := fun r : Regex => Regex.cat .lineStart (.cat (.many isSpace) r)
  [heading (.cat (.some isDecimal) (.cat (.char (· = '.')) (.cat (.many fun c => isDecimal c || c = '.')
      (.cat (.some isSpace) (.char isUpperLetter))))),
    heading (.cat (.word "Part".toList) (.cat (.some isSpace) (.some numeral))),
    heading (.cat (.word "Annex".toList) (.cat (.opt (.word "ure".toList)) (.cat (.some isSpace)
      (.some fun c => isUpperLetter (foldCase c).toUpper || c.isDigit)))),
    heading (.cat (.word "Schedule".toList) (.cat (.some isSpace) (.some numeral)))]

/-- `_extract_nearest_section`: `best_pos` and `best_heading` are accumulated over all matches of all patterns. -/
def extractNearestSection (text : Text) (charPos : Nat) : Text :=
  let searched := text.take charPos
  (sectionHeadingPatterns.foldl (fun best r => (r.spans searched).foldl (fun best m =>
      if best.1 < (m.1 : Int) then ((m.1 : Int), (strip ((searched.drop m.1).take m.2)).take 100) else best) best)
    ((-1 : Int), "Introduction".toList)).2

/-! ## Windows -/

/-- `count_tokens` with the `_FallbackTokeniser`. -/
def fallbackCount (text : Text) : Nat := max 1 (text.length / 4)

/-- `count_tokens`, and `MIN_CHUNK_SIZE_TOKENS`. -/
structure Chunker where
  countTokens : Text → Nat
  minChunkSizeTokens : Nat := 50

/-- `chunks`, and the index of the next chunk. -/
structure Emitted where
  chunks : List TextChunk
  chunkIndex : Nat

/-- `if chunk: chunks.append(chunk); chunk_index += 1`. -/
def Emitted.add (e : Emitted) : Option TextChunk → Emitted
  | some c => ⟨e.chunks ++ [c], e.chunkIndex + 1⟩
  | none => e

/-- A loop over paragraphs or sentences, with the window that it fills. -/
structure Windowed (α : Type) where
  emitted : Emitted
  current : List α
  currentTokens : Nat

section

variable {α : Type} (count : α → Nat)

/-- The items that the loop over `reversed(current)` inserts in front of the next window, the last one first. -/
def keptItems : Int → List α → List α
  | _, [] => []
  | budget, x :: xs => if budget ≤ 0 then [] else x :: keptItems (budget - count x) xs

/-- The overlap with the next window. -/
def overlapOf (overlapTokens : Int) (items : List α) : List α := (keptItems count overlapTokens items.reverse).reverse

variable (make : List α → Nat → Option TextChunk)

/-- Emit the current window. -/
def Windowed.emit (s : Windowed α) : Emitted := s.emitted.add (make s.current s.emitted.chunkIndex)

/-- One more item: when the window is full, emit it and start the next one with the overlap. -/
def Windowed.push (chunkSizeTokens overlapTokens : Int) (s : Windowed α) (x : α) : Windowed α :=
  let s : Windowed α := ⟨s.emitted, s.current ++ [x], s.currentTokens + count x⟩
  if chunkSizeTokens ≤ s.currentTokens then
    let kept := overlapOf count overlapTokens s.current
    ⟨s.emit make, kept, (kept.map count).sum⟩
  else s

/-- `if current:` emit it. -/
def Windowed.flush (s : Windowed α) : Emitted := if s.current.isEmpty then s.emitted else s.emit make

end

/-! ## Chunks -/

namespace Chunker

section

variable (chunker : Chunker) (text sourceDocumentId sourceUrl : Text)

/-- `_make_chunk`. -/
def makeChunk (paras : List (Nat × Text)) (chunkIndex : Nat) : Option TextChunk :=
  match paras with
  | [] => none
  | firstPara :: rest =>
    let content := "\n\n".toList.intercalate (paras.map Prod.snd)
    let tokenCount := chunker.countTokens content
    if tokenCount < chunker.minChunkSizeTokens then none
    else
      let lastPara := (rest.getLastD firstPara).2
      let charStart := find firstPara.2 text
      let charEndRaw := find lastPara text
      some {
        text := content
        chunkIndex := chunkIndex
        sourceDocumentId := sourceDocumentId
        sourceUrl := sourceUrl
        sectionHint := extractNearestSection text charStart.toNat
        charStart := max 0 charStart
        charEnd := if 0 ≤ charEndRaw then charEndRaw + lastPara.length else charStart + content.length
        tokenCount := tokenCount }

/-- The chunk of `current_sents`, unless it is too short. -/
def makeSentenceChunk (sents : List Text) (chunkIndex : Nat) : Option TextChunk :=
  let content := [' '].intercalate sents
  let tokenCount := chunker.countTokens content
  if chunker.minChunkSizeTokens ≤ tokenCount then
    let charStart := find (sents.headD []) text
    some {
      text := content
      chunkIndex := chunkIndex
      sourceDocumentId := sourceDocumentId
      sourceUrl := sourceUrl
      sectionHint := extractNearestSection text charStart.toNat
      charStart := max 0 charStart
      charEnd := max 0 charStart + content.length
      tokenCount := tokenCount }
  else none

variable (chunkSizeTokens overlapTokens : Int)

/-- `_chunk_large_paragraph`. -/
def chunkLargeParagraph (para : Text) (chunkIndex : Nat) : List TextChunk :=
  let make := chunker.makeSentenceChunk text sourceDocumentId sourceUrl
  let s := (splitIntoSentences para).foldl (Windowed.push chunker.countTokens make chunkSizeTokens overlapTokens)
    ⟨⟨[], chunkIndex⟩, [], 0⟩
  (s.flush make).chunks

/-- The body of the loop of `chunk_text`, with the paragraph and its index. -/
def chunkParagraph (s : Windowed (Nat × Text)) (p : Nat × Text) : Windowed (Nat × Text) :=
  let make := chunker.makeChunk text sourceDocumentId sourceUrl
  if chunkSizeTokens < chunker.countTokens p.2 then
    -- flush the current window before the sentences of a large paragraph
    let e := s.flush make
    let subChunks := chunker.chunkLargeParagraph text sourceDocumentId sourceUrl chunkSizeTokens overlapTokens p.2
      e.chunkIndex
    ⟨⟨e.chunks ++ subChunks, e.chunkIndex + subChunks.length⟩, [],
      if s.current.isEmpty then s.currentTokens else 0⟩
  else s.push (fun q => chunker.countTokens q.2) make chunkSizeTokens overlapTokens p

end

/-- `chunk_text`. -/
def chunkText (chunker : Chunker) (text sourceDocumentId sourceUrl : Text) (chunkSizeTokens overlapTokens : Int) :
    List TextChunk :=
  if (strip text).isEmpty then []
  else
    let text := normaliseWhitespace text
    let paragraphs := splitIntoParagraphs text
    let s := (paragraphs.zipIdx.map Prod.swap).foldl
      (chunker.chunkParagraph text sourceDocumentId sourceUrl chunkSizeTokens overlapTokens) ⟨⟨[], 0⟩, [], 0⟩
    (s.flush (chunker.makeChunk text sourceDocumentId sourceUrl)).chunks

end Chunker

end ComplianceLoop
