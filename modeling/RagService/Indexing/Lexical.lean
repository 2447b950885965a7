import RagService.Store.Model

/-!
# Lexical search terms

The identifiers that are indexed for exact matching, the segmented search text of
a chunk, and the full-text query of a question.
-/

namespace RagService
namespace Lexical

open Text

def isAsciiAlnum (c : Char) : Bool :=
  ('A' ≤ c ∧ c ≤ 'Z') ∨ ('a' ≤ c ∧ c ≤ 'z') ∨ ('0' ≤ c ∧ c ≤ '9')

def isJoiner (c : Char) : Bool :=
  c = '.' ∨ c = '_' ∨ c = ':' ∨ c = '/' ∨ c = '-'

/--
`_EXACT_TOKEN_PATTERN.finditer`: the alphanumeric runs, joined where a single joiner
stands between two of them.  The first argument is the match read so far, reversed.
-/
def exactMatches : Text -> Text -> List Text
  | found, [] => if found.isEmpty then [] else [found.reverse]
  | found, c :: rest =>
      if isAsciiAlnum c then exactMatches (c :: found) rest
      else if !found.isEmpty && isJoiner c && (rest.head?.map isAsciiAlnum).getD false then
        exactMatches (c :: found) rest
      else if found.isEmpty then exactMatches [] rest
      else found.reverse :: exactMatches [] rest

def tokenizeSearchText (env : Env) (text : Text) : Text :=
  let tokens := ((env.jiebaCut text).map strip).filter fun token => !token.isEmpty
  join [' '] (tokens ++ exactMatches [] text)

/-- The matches are ASCII, where `casefold` is `lower`. -/
def extractExactTokens (text : Text) : List Text :=
  ((exactMatches [] text).map lowerAscii).eraseDups

def maxQueryTerms : Nat :=
  16

/-- `str.split()`; the first argument is the word read so far, reversed. -/
def splitWords : Text -> Text -> List Text
  | word, [] => if word.isEmpty then [] else [word.reverse]
  | word, c :: rest =>
      if isSpace c then
        if word.isEmpty then splitWords [] rest else word.reverse :: splitWords [] rest
      else splitWords (c :: word) rest

/-- The loop of `build_websearch_query`: the terms kept so far and the tokens left. -/
def queryTerms (env : Env) : List Text -> List Text -> List Text
  | terms, [] => terms
  | terms, token :: tokens =>
      let safeToken := strip (token.filter fun c => c ≠ '"')
      if !safeToken.any env.isAlnum then queryTerms env terms tokens
      else if safeToken.length = 1 ∧ safeToken.all fun c => '\u4e00' ≤ c ∧ c ≤ '\u9fff' then
        queryTerms env terms tokens
      else if terms.any fun term => env.casefold term = env.casefold safeToken then
        queryTerms env terms tokens
      else if terms.length + 1 = maxQueryTerms then terms ++ [safeToken]
      else queryTerms env (terms ++ [safeToken]) tokens

def buildWebsearchQuery (env : Env) (text : Text) : Text :=
  let tokens := extractExactTokens text ++ splitWords [] (tokenizeSearchText env text)
  join " OR ".toList ((queryTerms env [] tokens).map fun term => '"' :: term ++ ['"'])

end Lexical
end RagService
