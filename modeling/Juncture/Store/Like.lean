import Mathlib.Data.List.Infix

/-!
# `LIKE`

The operator of SQLite matches a text against a pattern: `%` stands for any text, `_` for any character,
and letters of the English alphabet match in either case.

* `like_prefix`, `like_suffix` : a text that starts, or ends, with a text matches the pattern of it.
-/

namespace Juncture

namespace Store

/-- `text LIKE pattern`. -/
def like : List Char → List Char → Bool
  | [], text => text.isEmpty
  | p :: pattern, text =>
    if p = '%' then text.tails.any fun rest => like pattern rest
    else
      match text with
      | [] => false
      | c :: text => (p == '_' || p.toLower == c.toLower) && like pattern text

theorem like_percent {pattern text rest : List Char} (h : rest <:+ text) (hrest : like pattern rest) :
    like ('%' :: pattern) text = true := by
  simp only [like, ↓reduceIte, List.any_eq_true, List.mem_tails]
  exact ⟨rest, h, hrest⟩

/-- A text is matched by itself, and what comes behind it by what comes behind it in the pattern. -/
theorem like_append_append {pattern text : List Char} (h : like pattern text) (l : List Char) :
    like (l ++ pattern) (l ++ text) = true := by
  induction l with
  | nil => exact h
  | cons c l ih =>
    by_cases hc : c = '%'
    · subst hc
      exact like_percent (List.suffix_cons _ _) ih
    · simp only [List.cons_append, like, hc, ↓reduceIte, beq_self_eq_true, Bool.or_true, Bool.true_and]
      exact ih

theorem like_prefix {front text : List Char} (h : front <+: text) : like (front ++ ['%']) text = true := by
  obtain ⟨rest, rfl⟩ := h
  exact like_append_append (like_percent List.nil_suffix rfl) front

theorem like_suffix {back text : List Char} (h : back <:+ text) : like ('%' :: back) text = true := by
  refine like_percent h ?_
  have hself : like (back ++ []) (back ++ []) = true := like_append_append rfl back
  rwa [List.append_nil] at hself

end Store

end Juncture
