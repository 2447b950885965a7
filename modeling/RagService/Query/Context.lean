import Mathlib.Data.List.Infix
import RagService.Foundation.Numbers
import RagService.Store.Model

/-!
# Answer context

`context.py`: the sources that fit into the context of the model, the check that they are
about what the question asks for, and the citations of the answer.
-/

namespace RagService

open Text

structure GetSourceDetail where
  knowledgeBaseId : Nat
  documentId : Nat
  documentName : Text
  chunkId : Nat
  chunkIndex : Int
  content : Text
  score : Rat
  rerankScore : Option Double
  citation : Text
  deriving DecidableEq

namespace Context

/-!
# The token budget

The quarter tokens that a character takes, by its script, and the characters that fit next to
those that have been used.
-/

def unitCost (c : Char) : Nat :=
  if 0x3400 ≤ c.toNat ∧ c.toNat ≤ 0x9fff then 4 else 1

def estimateTokenUnits (text : Text) : Nat :=
  (text.map unitCost).sum

def takeUnits (availableUnits : Nat) : Nat -> Text -> Text
  | _, [] => []
  | used, c :: rest =>
      if availableUnits < used + unitCost c then []
      else c :: takeUnits availableUnits (used + unitCost c) rest

def truncateToUnits (text : Text) (availableUnits : Nat) : Text :=
  rstrip (takeUnits availableUnits 0 text)

/-!
# Selecting sources

`build_bounded_context` goes through the sources with the keys that it has seen, the parts and
the units so far; a `break` drops the rest.
-/

structure ContextSelection where
  context : Text
  sources : List GetSourceDetail

/-- The loop variables of `build_bounded_context`. -/
structure Selecting where
  usedUnits : Nat
  selectedSources : List GetSourceDetail
  parts : List Text
  seen : List (Nat × Text)

/-- Keys are equal when their numbers and their texts are. -/
instance (priority := high) instLawfulBEqDedupeKey : LawfulBEq (Nat × Text) := inferInstance

def dedupeKey (source : GetSourceDetail) : Nat × Text :=
  (source.documentId, source.content)

/-- The loop of `build_bounded_context`; a `break` drops the rest. -/
def selectSources (maxSources maxUnits : Nat) : Selecting -> List GetSourceDetail -> Selecting
  | s, [] => s
  | s, source :: rest =>
      if dedupeKey source ∈ s.seen ∨ s.selectedSources.length = maxSources then
        selectSources maxSources maxUnits s rest
      else
        let label := source.citation ++ [' ']
        let available := maxUnits - s.usedUnits - estimateTokenUnits label
        if available = 0 then s
        else
          let content := truncateToUnits source.content available
          if content.isEmpty then s
          else
            let part := label ++ content
            let next : Selecting :=
              { usedUnits := s.usedUnits + estimateTokenUnits part
                selectedSources := s.selectedSources ++ [{ source with content := content }]
                parts := s.parts ++ [part]
                seen := s.seen ++ [dedupeKey source] }
            if maxUnits ≤ next.usedUnits then next
            else selectSources maxSources maxUnits next rest

def buildBoundedContext (sources : List GetSourceDetail) (maxSources maxTokens : Nat) :
    Except Exception ContextSelection :=
  if maxSources < 1 ∨ maxTokens < 1 then
    .error (.value "上下文来源数和 Token 预算必须大于 0".toList)
  else
    let selecting := selectSources maxSources (maxTokens * 4) ⟨0, [], [], []⟩ sources
    .ok ⟨join ['\n', '\n'] selecting.parts, selecting.selectedSources⟩

/-!
# Evidence

A question about the current system mentions it by a marker, and evidence shows one of the same
markers.
-/

def scopeMarkers : List Text :=
  ["本项目".toList, "本系统".toList, "本服务".toList, "本知识库".toList, "我们的".toList]

def requiredMarkers (question : Text) : List Text :=
  scopeMarkers.filter fun marker => marker <:+: question

def hasSufficientScopeEvidence (question : Text) (sources : List GetSourceDetail) : Bool :=
  let required := requiredMarkers question
  if required.isEmpty then !sources.isEmpty
  else required.any fun marker => sources.any fun source => marker <:+: source.content

/-!
# Citations

A text is cut at its leftmost matches of `\[S\d+\]` into pieces, of which the substitution
leaves out the matches that no source has.
-/

/-- The match of `\[S\d+\]` at the start of a text. -/
def citationMatch : Text -> Option Text
  | '[' :: 'S' :: rest =>
      let digits := rest.takeWhile isDecimal
      if digits ≠ [] ∧ (rest.dropWhile isDecimal).head? = some ']' then
        some ('[' :: 'S' :: digits ++ [']'])
      else none
  | _ => none

/-- A match of the citation pattern, or a character outside every match. -/
inductive Piece where
  | text (c : Char)
  | citation (m : Text)
  deriving DecidableEq

def pieces : Nat -> Text -> List Piece
  | _, [] => []
  | skip + 1, _ :: rest => pieces skip rest
  | 0, c :: rest =>
      match citationMatch (c :: rest) with
      | some m => .citation m :: pieces (m.length - 1) rest
      | none => .text c :: pieces 0 rest

def Piece.citation? : Piece -> Option Text
  | .text _ => none
  | .citation m => some m

/-- `_CITATION_PATTERN.findall(answer)` -/
def findCitations (answer : Text) : List Text :=
  (pieces 0 answer).filterMap Piece.citation?

def Piece.sanitized (known : List Text) : Piece -> Text
  | .text c => [c]
  | .citation m => if m ∈ known then m else []

def sanitizeAnswerCitations (answer : Text) (sources : List GetSourceDetail) : Text :=
  (pieces 0 answer).flatMap (Piece.sanitized (sources.map GetSourceDetail.citation))

def byCitation (sources : List GetSourceDetail) (citation : Text) : Option Nat :=
  (sources.reverse.find? fun source => source.citation = citation).map GetSourceDetail.chunkId

def extractCitedChunkIds (answer : Text) (sources : List GetSourceDetail) : List Nat :=
  ((findCitations answer).filterMap (byCitation sources)).eraseDups

end Context
end RagService
