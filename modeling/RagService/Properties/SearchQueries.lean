import RagService.Foundation.Firsts
import RagService.Foundation.Splitting
import RagService.Indexing.Identifiers

/-!
# Full-text queries

The query of a question is a disjunction of quoted terms that have no quotes or white space
in them, whatever the question and its segmentation; so it is split into its terms again.
-/

namespace RagService
namespace SearchQueries

open Text Lexical Firsts Splitting

structure SafeTerm (env : Env) (term : Text) : Prop where
  noQuote : '"' ∉ term
  noSpace : forall c, c ∈ term -> isSpace c = false
  alnum : exists c, c ∈ term ∧ env.isAlnum c = true
  notIdeograph : ¬ exists c, term = [c] ∧ '\u4e00' ≤ c ∧ c ≤ '\u9fff'

/-- The query is the disjunction of these terms, and gives them back. -/
structure QueryOf (env : Env) (query : Text) (terms : List Text) : Prop where
  text : query = join " OR ".toList (terms.map fun term => '"' :: term ++ ['"'])
  bounds : 1 ≤ terms.length ∧ terms.length ≤ 16
  safe : forall term, term ∈ terms -> SafeTerm env term
  distinct : (terms.map env.casefold).Nodup
  recovered : (split " OR ".toList query).map (stripOf '"') = terms

/-!
# Tokens

Exact tokens and words have no white space.
-/

theorem isSpace_of_alnum {c : Char} (h : isAsciiAlnum c = true) : isSpace c = false := by
  have hranges : (65 ≤ c.toNat ∧ c.toNat ≤ 90) ∨ (97 ≤ c.toNat ∧ c.toNat ≤ 122) ∨
      (48 ≤ c.toNat ∧ c.toNat ≤ 57) := of_decide_eq_true h
  unfold isSpace
  simp only [Bool.or_eq_false_iff, Bool.and_eq_false_iff, decide_eq_false_iff_not, beq_eq_false_iff_ne]
  omega

theorem isSpace_of_joiner {c : Char} (h : isJoiner c = true) : isSpace c = false := by
  unfold isJoiner at h
  rw [decide_eq_true_eq] at h
  rcases h with rfl | rfl | rfl | rfl | rfl <;> decide

theorem isSpace_of_exactToken {text token : Text} (h : token ∈ extractExactTokens text) {c : Char}
    (hc : c ∈ token) : isSpace c = false := by
  unfold extractExactTokens at h
  rw [List.mem_eraseDups] at h
  rcases List.mem_map.mp h with ⟨word, hword, rfl⟩
  rcases List.mem_map.mp hc with ⟨d, hd, rfl⟩
  have hclass := mem_exactMatches hword hd
  split
  · rename_i hupper
    exact isSpace_of_alnum (classes_lower hupper).2
  · cases hclass with
    | inl halnum => exact isSpace_of_alnum halnum
    | inr hjoiner => exact isSpace_of_joiner hjoiner

theorem isSpace_of_splitWords {word s token : Text}
    (hword : forall c, c ∈ word -> isSpace c = false) (h : token ∈ splitWords word s) {c : Char}
    (hc : c ∈ token) : isSpace c = false := by
  have hreverse : forall d, d ∈ word.reverse -> isSpace d = false :=
    fun d hd => hword d (List.mem_reverse.mp hd)
  induction s generalizing word with
  | nil =>
      rw [splitWords] at h
      split at h
      · cases h
      · rw [List.mem_singleton.mp h] at hc
        exact hreverse c hc
  | cons d rest ih =>
      have hnil : forall c, c ∈ ([] : Text) -> isSpace c = false :=
        fun _ hmem => absurd hmem List.not_mem_nil
      rw [splitWords] at h
      split at h
      · split at h
        · exact ih hnil h hnil
        · cases List.mem_cons.mp h with
          | inl heq =>
              rw [heq] at hc
              exact hreverse c hc
          | inr hin => exact ih hnil hin hnil
      · rename_i hd
        have hlonger : forall e, e ∈ d :: word -> isSpace e = false := by
          intro e he
          cases List.mem_cons.mp he with
          | inl heq =>
              rw [heq]
              exact Bool.not_eq_true _ |>.mp hd
          | inr hin => exact hword e hin
        exact ih hlonger h fun e he => hlonger e (List.mem_reverse.mp he)

/-!
# Terms

The loop collects the first sixteen terms at most with different casefolded forms.  Quoted
terms joined by `OR` are split into the terms again.
-/

/-- `token.replace('"', '').strip()` -/
def safeToken (token : Text) : Text :=
  strip (token.filter fun c => c ≠ '"')

def keeps (env : Env) (term : Text) : Bool :=
  term.any env.isAlnum && !(term.length = 1 && term.all fun c => '\u4e00' ≤ c ∧ c ≤ '\u9fff')

theorem queryTerms_eq_collect (env : Env) (terms tokens : List Text) :
    queryTerms env terms tokens =
      collect env.casefold maxQueryTerms terms (terms.map env.casefold)
        ((tokens.map safeToken).filter (keeps env)) := by
  induction tokens generalizing terms with
  | nil => rfl
  | cons token rest ih =>
      rw [List.map_cons, List.filter_cons, queryTerms]
      have hsafe : strip (token.filter fun c => c ≠ '"') = safeToken token := rfl
      rw [hsafe]
      unfold keeps
      cases halnum : (safeToken token).any env.isAlnum with
      | false =>
          rw [Bool.false_and]
          exact ih terms
      | true =>
          rw [Bool.true_and]
          by_cases hideograph : (safeToken token).length = 1 ∧
              ((safeToken token).all fun c => '\u4e00' ≤ c ∧ c ≤ '\u9fff') = true
          · rw [if_pos hideograph, decide_eq_true hideograph.1, hideograph.2]
            exact ih terms
          · have hkept : (!(decide ((safeToken token).length = 1) &&
                (safeToken token).all fun c => '\u4e00' ≤ c ∧ c ≤ '\u9fff')) = true := by
              rw [Bool.not_eq_true', Bool.and_eq_false_iff]
              rw [not_and_or] at hideograph
              cases hideograph with
              | inl hlength => exact .inl (decide_eq_false hlength)
              | inr hall => exact .inr (Bool.not_eq_true _ |>.mp hall)
            have hseen : (terms.any fun term =>
                env.casefold term = env.casefold (safeToken token)) = true ↔
                  env.casefold (safeToken token) ∈ terms.map env.casefold := by
              rw [List.any_eq_true, List.mem_map]
              constructor
              · intro h
                rcases h with ⟨term, hterm, heq⟩
                exact ⟨term, hterm, of_decide_eq_true heq⟩
              · intro h
                rcases h with ⟨term, hterm, heq⟩
                exact ⟨term, hterm, decide_eq_true heq⟩
            rw [if_neg hideograph, hkept, if_pos rfl, collect]
            by_cases hmem : env.casefold (safeToken token) ∈ terms.map env.casefold
            · rw [if_pos (hseen.mpr hmem), if_pos hmem]
              exact ih terms
            · have hterms := ih (terms ++ [safeToken token])
              rw [List.map_append, List.map_singleton] at hterms
              rw [if_neg (mt hseen.mp hmem), if_neg hmem, hterms]
              rfl

theorem safeTerm_of_keeps {env : Env} {token : Text}
    (hspace : forall c, c ∈ token -> isSpace c = false) (h : keeps env (safeToken token) = true) :
    SafeTerm env (safeToken token) := by
  unfold keeps at h
  rw [Bool.and_eq_true, Bool.not_eq_true'] at h
  have hfrom : forall c, c ∈ safeToken token -> c ∈ token ∧ c ≠ '"' := by
    intro c hc
    have hfiltered := List.mem_filter.mp (mem_of_mem_strip hc)
    exact ⟨hfiltered.1, of_decide_eq_true hfiltered.2⟩
  constructor
  · exact fun hquote => (hfrom '"' hquote).2 rfl
  · exact fun c hc => hspace c (hfrom c hc).1
  · exact List.any_eq_true.mp h.1
  · intro hideograph
    rcases hideograph with ⟨c, hterm, hrange⟩
    have hboth := h.2
    rw [hterm, List.all_cons, decide_eq_true hrange] at hboth
    cases hboth

theorem terms_facts (env : Env) (text : Text) :
    let terms := queryTerms env []
      (extractExactTokens text ++ splitWords [] (tokenizeSearchText env text))
    terms.length ≤ 16 ∧ (forall term, term ∈ terms -> SafeTerm env term) ∧
      (terms.map env.casefold).Nodup := by
  intro terms
  let tokens := extractExactTokens text ++ splitWords [] (tokenizeSearchText env text)
  have hspace : forall token, token ∈ tokens -> forall c, c ∈ token -> isSpace c = false := by
    intro token htoken c hc
    cases List.mem_append.mp htoken with
    | inl hexact => exact isSpace_of_exactToken hexact hc
    | inr hword => exact isSpace_of_splitWords (fun _ h => absurd h List.not_mem_nil) hword hc
  have hterms : terms =
      (firsts env.casefold ((tokens.map safeToken).filter (keeps env))).take maxQueryTerms := by
    have hcollect := queryTerms_eq_collect env [] tokens
    rw [List.map_nil, collect_nil _ _ (by decide)] at hcollect
    exact hcollect
  have hsublist : terms.Sublist ((tokens.map safeToken).filter (keeps env)) := by
    rw [hterms]
    exact (List.take_sublist _ _).trans (firsts_sublist _ _)
  constructor
  · rw [hterms]
    exact List.length_take_le _ _
  · constructor
    · intro term hterm
      have hkept := List.mem_filter.mp (hsublist.subset hterm)
      rcases List.mem_map.mp hkept.1 with ⟨token, htoken, rfl⟩
      exact safeTerm_of_keeps (hspace token htoken) hkept.2
    · rw [hterms]
      exact (nodup_keys_firsts _ _).sublist ((List.take_sublist _ _).map _)

/-- Quoted terms joined by `OR` are split into the terms again. -/
theorem recovered_of_safe {env : Env} {terms : List Text} (hne : terms ≠ [])
    (hsafe : forall term, term ∈ terms -> SafeTerm env term) :
    (split " OR ".toList (join " OR ".toList (terms.map fun term => '"' :: term ++ ['"']))).map
      (stripOf '"') = terms := by
  have hparts : forall part, part ∈ terms.map (fun term => '"' :: term ++ ['"']) ->
      ' ' ∉ part := by
    intro part hpart hspace
    rcases List.mem_map.mp hpart with ⟨term, hterm, rfl⟩
    rw [List.cons_append, List.mem_cons, List.mem_append, List.mem_singleton] at hspace
    rcases hspace with hquote | hin | hquote
    · cases hquote
    · have hno := (hsafe term hterm).noSpace ' ' hin
      cases hno
    · cases hquote
  have hquoted : terms.map (fun term => '"' :: term ++ ['"']) ≠ [] := by
    rw [Ne, List.map_eq_nil_iff]
    exact hne
  have hsplit := split_join ' ' "OR ".toList hquoted hparts
  have hseparator : " OR ".toList = ' ' :: "OR ".toList := rfl
  rw [hseparator, hsplit, List.map_map]
  have hid : terms.map id = terms := List.map_id terms
  conv_rhs => rw [← hid]
  apply List.map_congr_left
  intro term hterm
  exact stripOf_quoted (hsafe term hterm).noQuote

/--
The full-text query is empty or a disjunction of one to sixteen quoted terms, which can be
read back from it, for every segmentation.
-/
theorem websearch_query_safe (env : Env) (text : Text) :
    buildWebsearchQuery env text = [] ∨
      exists terms, QueryOf env (buildWebsearchQuery env text) terms := by
  rcases terms_facts env text with ⟨hlength, hsafe, hdistinct⟩
  unfold buildWebsearchQuery
  dsimp only
  generalize queryTerms env []
    (extractExactTokens text ++ splitWords [] (tokenizeSearchText env text)) = terms at *
  by_cases hne : terms = []
  · left
    rw [hne]
    rfl
  · right
    exists terms
    constructor
    · rfl
    · exact ⟨List.length_pos_iff.mpr hne, hlength⟩
    · exact hsafe
    · exact hdistinct
    · exact recovered_of_safe hne hsafe

end SearchQueries
end RagService
