import Restage.Proofs.Conversion.ExpressionSites

/-!
# String literals inside an expression

The exchanges of an expression go over its literals as well, so that a literal which looks like code
is changed.  `string_contents_kept_iff` says which are: those with a site in them.  A search on the
driver by a literal cannot stand inside another literal, since its own quotes would have to be
escaped there; it can stand across the literals of a sum, as sites can.
-/

namespace Restage.Conversion

open Text Java List

lemma exists_stringTail?_of_literalSearch? {t r : Text} (h : literalSearch? t = some r) :
    ∃ p q body v, ".findElement(".toList <:+: p ∧ t = p ++ '"' :: q ∧
      stringTail? q = some (body, ')' :: v) := by
  obtain ⟨start, reference, inner, literal, gap, -, -, rfl, -, -, hliteral⟩ := literalSearch?_eq_some h
  obtain ⟨-, hread⟩ := string?_eq_some (string?_of_isString hliteral)
  have hliteral := hread (')' :: gap ++ ')' :: r)
  rw [string?.eq_def] at hliteral
  split at hliteral
  next q heq =>
    obtain ⟨⟨body, v⟩, hbody, hfound⟩ := Option.map_eq_some_iff.1 hliteral
    cases hfound
    refine ⟨start ++ reference ++ ".findElement(" ++ inner, q, body, gap ++ ')' :: r,
      ⟨start ++ reference, inner, rfl⟩, ?_, hbody⟩
    rw [← heq]
    simp
  · cases hliteral

lemma noSearchRead_of_isString {literal : Text} (h : isString literal = true) : NoSearchRead literal := by
  obtain ⟨r, body, rfl, hbody⟩ : ∃ r body, literal = '"' :: r ∧ stringTail? r = some (body, []) := by
    have hread := string?_of_isString h
    rw [string?.eq_def] at hread
    split at hread
    next r =>
      obtain ⟨⟨body, _⟩, hbody, hpair⟩ := Option.map_eq_some_iff.1 hread
      obtain ⟨-, rfl⟩ := Prod.mk.inj hpair
      exact ⟨r, body, rfl, hbody⟩
    · cases hread
  intro s u hs hsearch
  obtain ⟨p, q, body', v, hcall, rfl, hinner⟩ := exists_stringTail?_of_literalSearch? hsearch
  obtain ⟨x, hx⟩ := hs
  have hopen : '(' ∈ p := hcall.subset (by decide)
  obtain ⟨d, y, hy⟩ := exists_cons_of_ne_nil (ne_nil_of_mem (mem_append_right x hopen))
  rw [← append_assoc, hy] at hx
  have hr : r = y ++ '"' :: q := (cons.inj hx).2.symm
  have hq : q ≠ [] := by
    rintro rfl
    cases hinner
  obtain ⟨_, hend⟩ := stringTail?_behind_quote hbody hr hq
  cases hinner.symm.trans hend

lemma noSearchRead_of_not_mem {t : Text} (h : '(' ∉ t) : NoSearchRead t := by
  intro s r hs hsearch
  obtain ⟨p, q, _, _, hcall, rfl, -⟩ := exists_stringTail?_of_literalSearch? hsearch
  exact absurd (hs.subset (mem_append_left _ (hcall.subset (by decide)))) h

lemma Site.mem_parenthesis {ctx : Context} {t : Text} (h : Site ctx t) : '(' ∈ t := by
  rcases h with ⟨before, name, read, after, rfl, -, ⟨target, action, args, rfl, -⟩, -⟩ |
    ⟨query, hquery, reference, -, hinfix⟩ | ⟨receiver, argument, -, -, hinfix⟩
  · simp
  · have hall : ∀ query ∈ driverQueries, '(' ∈ query := by decide
    exact hinfix.subset (mem_append_right _ (hall query hquery))
  · exact hinfix.subset (by simp [equalsCall])

/-- **The contents of string literals.**  A literal comes through as it is exactly if none of the
reads, queries and comparisons that an expression looks for stands in it.  The same holds of every
other text, sums of literals and names among them, in which no search on the driver is read.  A text
without an opening parenthesis always comes through. -/
theorem string_contents_kept_iff (ctx : Context) :
    (∀ literal, isString literal = true → (expression ctx literal = literal ↔ ¬Site ctx literal)) ∧
      (∀ t, NoSearchRead t → (expression ctx t = t ↔ ¬Site ctx t)) ∧
      ∀ t, '(' ∉ t → expression ctx t = t := by
  refine ⟨fun literal h => ?_, fun t h => ?_, fun t h => ?_⟩
  · exact expression_eq_self_iff ctx (noSearchRead_of_isString h)
  · exact expression_eq_self_iff ctx h
  · exact (expression_eq_self_iff ctx (noSearchRead_of_not_mem h)).2 fun hsite => h hsite.mem_parenthesis

/-- A message that quotes a call, with the quotes escaped, and a sum of a literal and a name. -/
theorem string_contents_kept_iff_message :
    (isString "\"no \\\"getTitle()\\\"\"" = true ∧ ¬Site {} "\"no \\\"getTitle()\\\"\"") ∧
      (NoSearchRead "\"a.equals(\" + b" ∧ ¬Site {} "\"a.equals(\" + b") ∧
      '(' ∉ "\"driver\" + title".toList ∧ expression {} "\"driver\" + title" = "\"driver\" + title".toList := by
  have hsearch : ∀ s ∈ "\"a.equals(\" + b".toList.tails, literalSearch? s = none := by decide +kernel
  have hsum : NoSearchRead "\"a.equals(\" + b" := by
    intro s r hs hr
    rw [hsearch s ((List.mem_tails _ _).2 hs)] at hr
    cases hr
  have hkept := string_contents_kept_iff {}
  exact ⟨⟨by decide, (hkept.1 _ (by decide)).1 (by decide +kernel)⟩,
    ⟨hsum, (hkept.2.1 _ hsum).1 (by decide +kernel)⟩, by decide, hkept.2.2 _ (by decide)⟩

/-- A literal with a query of the driver in it is changed. -/
theorem string_contents_changed :
    isString "\"driver.getTitle()\"" = true ∧
      expression {} "\"driver.getTitle()\"" = "\"await this.page.title()\"".toList ∧
      expression {} "\"driver.getTitle()\"" ≠ "\"driver.getTitle()\"".toList := by
  decide +kernel

end Restage.Conversion
