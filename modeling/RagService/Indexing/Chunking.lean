import RagService.Foundation.Text

/-!
# Splitting document text

`clean_text`, `split_text` and `split_parent_child_text`: a cleaned text is cut
into sections at Markdown headings and page marks, and each section into
retrieval chunks of whole paragraphs, or sliding windows of a paragraph that is
too long for one chunk.
-/

namespace RagService
namespace Chunking

open Text

/-!
# Cleaning

`clean_text` makes newlines of all line ends, removes the other control characters, and leaves
two newlines of every longer run.
-/

/-- The control characters that `clean_text` removes. -/
def isControl (c : Char) : Bool :=
  let n := c.toNat
  n ≤ 8 || n == 0x0b || n == 0x0c || (0x0e ≤ n && n ≤ 0x1f) || n == 0x7f

/-- `text.replace('\r\n', '\n').replace('\r', '\n')` -/
def normalizeNewlines : Text -> Text
  | [] => []
  | '\r' :: '\n' :: rest => '\n' :: normalizeNewlines rest
  | c :: rest => (if c = '\r' then '\n' else c) :: normalizeNewlines rest

/-- `re.sub('\n{3,}', '\n\n', text)`, counting the newlines of the current run. -/
def collapseNewlines : Nat -> Text -> Text
  | _, [] => []
  | run, c :: rest =>
      if c = '\n' then
        if run < 2 then c :: collapseNewlines (run + 1) rest
        else collapseNewlines (run + 1) rest
      else
        c :: collapseNewlines 0 rest

def cleanText (text : Text) : Text :=
  strip (collapseNewlines 0 (normalizeNewlines (text.filter fun c => !isControl c)))

/-!
# Paragraphs and windows

A text is split at blank lines into paragraphs, which are packed into chunks; a paragraph that
is longer than a chunk is cut into windows.
-/

/--
`re.split('\n{2,}', text)`.  The flag is set inside a separating run of newlines.
-/
def splitBlankLines : Bool -> Text -> List Text
  | _, [] => [[]]
  | true, c :: rest =>
      if c = '\n' then splitBlankLines true rest
      else consPiece c (splitBlankLines false rest)
  | false, c :: rest =>
      if c = '\n' ∧ rest.head? = some '\n' then [] :: splitBlankLines true rest
      else consPiece c (splitBlankLines false rest)

def paragraphs (content : Text) : List Text :=
  ((splitBlankLines false content).map strip).filter fun p => !p.isEmpty

/-- `paragraph[i : i + size] for i in range(0, len(paragraph), step)` -/
def windows (size step : Nat) (paragraph : Text) : List Text :=
  (List.range ((paragraph.length + step - 1) / step)).map fun i =>
    slice paragraph (i * step) size

def blankLine : Text :=
  ['\n', '\n']

structure Packing where
  chunks : List Text
  current : Text

/-- One turn of the loop of `split_text`. -/
def packParagraph (chunkSize overlap : Nat) (s : Packing) (paragraph : Text) : Packing :=
  if chunkSize < paragraph.length then
    let closed := if s.current.isEmpty then s.chunks else s.chunks ++ [s.current]
    let step := max (chunkSize - overlap) 1
    { chunks := closed ++ windows chunkSize step paragraph, current := [] }
  else
    let candidate := strip (s.current ++ blankLine ++ paragraph)
    if candidate.length ≤ chunkSize then
      { s with current := candidate }
    else
      { chunks := s.chunks ++ [s.current]
        current :=
          if overlap = 0 then paragraph
          else strip (takeEnd s.current overlap ++ blankLine ++ paragraph) }

def splitText (text : Text) (chunkSize overlap : Nat) : List Text :=
  let content := cleanText text
  if content.isEmpty then []
  else
    let packed := (paragraphs content).foldl (packParagraph chunkSize overlap) ⟨[], []⟩
    let chunks :=
      if packed.current.isEmpty then packed.chunks else packed.chunks ++ [packed.current]
    chunks.filter fun chunk => !(strip chunk).isEmpty

/-!
# Retrieval context
-/

def contextualizeChunk (filename : Text) (headingPath : List Text) (content : Text) : Text :=
  let heading := if headingPath.isEmpty then "未分节".toList else join " > ".toList headingPath
  "文件：".toList ++ filename ++ "\n章节：".toList ++ heading ++ blankLine ++ content

/-!
# Sections

The lines of a text are gone through with the heading path and the lines of the open section.
A mark line closes the section and opens a path.
-/

structure ParentChildChunks where
  headingPath : List Text
  parentContent : Text
  children : List Text
  deriving DecidableEq

/-- `^(#{1,6})\s+(.+)$`: the level and the untrimmed title of a heading line. -/
def headingMatch (line : Text) : Option (Nat × Text) :=
  let level := (line.takeWhile (· = '#')).length
  let rest := line.drop level
  let spaces := rest.takeWhile isSpace
  let title := rest.drop spaces.length
  if 1 ≤ level ∧ level ≤ 6 ∧ spaces ≠ [] then
    if title ≠ [] then some (level, title)
    -- nothing but spaces: the title is the last of them
    else if 2 ≤ spaces.length then some (level, spaces.drop (spaces.length - 1))
    else none
  else none

/-- `^第\s*(\d+)\s*页$`: the page number of a page mark. -/
def pageMatch : Text -> Option Text
  | '第' :: rest =>
      let rest := rest.dropWhile isSpace
      let digits := rest.takeWhile isDecimal
      if digits ≠ [] ∧ (rest.drop digits.length).dropWhile isSpace = ['页'] then some digits
      else none
  | _ => none

/-- The loop variables of `split_parent_child_text`. -/
structure Sections where
  sections : List (List Text × List Text)
  headingPath : List Text
  sectionLines : List Text

/-- `if section_lines: sections.append((heading_path.copy(), section_lines))` -/
def Sections.close (s : Sections) : List (List Text × List Text) :=
  if s.sectionLines.isEmpty then s.sections
  else s.sections ++ [(s.headingPath, s.sectionLines)]

def markedPath (path : List Text) (line : Text) : Option (List Text) :=
  match pageMatch line with
  | some page => some ["第 ".toList ++ page ++ " 页".toList]
  | none =>
      (headingMatch line).map fun (level, title) => path.take (level - 1) ++ [strip title]

def sectionLine (s : Sections) (line : Text) : Sections :=
  match markedPath s.headingPath line with
  | some path => { sections := s.close, headingPath := path, sectionLines := [line] }
  | none => { s with sectionLines := s.sectionLines ++ [line] }

def splitSections (content : Text) : List (List Text × List Text) :=
  ((splitLines content).foldl sectionLine ⟨[], [], []⟩).close

def splitParentChildText (text : Text) (chunkSize overlap : Nat) : List ParentChildChunks :=
  let content := cleanText text
  if content.isEmpty then []
  else
    (splitSections content).filterMap fun (path, lines) =>
      let parent := cleanText (join ['\n'] lines)
      if parent.isEmpty then none
      else some ⟨path, parent, splitText parent chunkSize overlap⟩

end Chunking
end RagService
