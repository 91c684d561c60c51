import Restage.Proofs.TypeScript.SheetCalls

/-!
# What the calls on a sheet are off by

`Proofs/TypeScript/SheetCalls.lean` asks of every line that it has the braces its call stands for.
Lines that come from a source text need not: a header may open two braces, a statement may close
one.  Here the lines may have any braces at all, and the question is by how much the sheet is off
then.

Each call is off by its `excess`: the braces of its lines, less the one brace that a line is to open
when it opens a scope.  `Sheet.Accounted n` says that the body has as many braces open as there are
scopes, and `n` more; a call adds its excess to `n` (`Accounted.perform`).  Only block comments
stand in the way, since they hide the lines after them: what a call writes has to be `Settled`, that
is, to end outside of the block comments that it starts.

Whether a call writes settled lines or not, the closers of the open scopes are each worth one brace
or nothing (`texts_closers`), which is what `opens_eq_closes_iff` rests on.
-/

namespace Restage.TypeScript

open Text List

/-! ## Settled texts -/

/-- Where the counter ends that starts with some texts. -/
def tallyOf (ts : List Text) : Tally := ({} : Tally).texts ts

/-- Texts that end outside of block comments when they are read by themselves. -/
def Settled (ts : List Text) : Prop := (tallyOf ts).inBlock = false

instance (ts : List Text) : Decidable (Settled ts) := inferInstanceAs (Decidable (_ = _))

variable {ts : List Text} {s s' : Sheet} {c : Call} {calls : List Call}

lemma tallyOf_of_settled (h : Settled ts) : tallyOf ts = ⟨false, (tallyOf ts).balance⟩ := by
  rw [← h]

lemma tallyOf_append {us : List Text} {n : Int} (h : tallyOf ts = ⟨false, n⟩) :
    tallyOf (ts ++ us) = (tallyOf us).plus n := by
  have hplus : (⟨false, n⟩ : Tally) = ({} : Tally).plus n := by simp [Tally.plus]
  rw [tallyOf, Tally.texts_append, ← tallyOf, h, hplus, Tally.texts_plus]
  rfl

lemma tallyOf_of_forall_settled (h : ∀ t ∈ ts, Settled [t]) : tallyOf ts = ⟨false, total ts⟩ := by
  induction ts with
  | nil => rfl
  | cons t ts ih =>
    have ht := tallyOf_of_settled (h t (by simp))
    have hbalance : (tallyOf [t]).balance = balanceOf t := (Tally.balance_ofText t).symm
    rw [hbalance] at ht
    rw [← singleton_append, tallyOf_append ht, ih fun u hu => h u (by simp [hu])]
    simp [Tally.plus, Int.add_comm]

/-- What closes a scope: a brace, or a brace and what ends a call. -/
def IsCloser (t : Text) : Prop := t = "\x7d" ∨ t = "\x7d);"

lemma text_closer {t : Text} (h : IsCloser t) (s : Tally) :
    s.text t = if s.inBlock then s else s.plus (-1) := by
  obtain ⟨inBlock, balance⟩ := s
  rcases h with rfl | rfl <;> cases inBlock <;> rfl

lemma texts_closers (h : ∀ t ∈ ts, IsCloser t) (s : Tally) :
    s.texts ts = if s.inBlock then s else s.plus (-ts.length) := by
  induction ts generalizing s with
  | nil => simp [Tally.plus]
  | cons t ts ih =>
    rw [Tally.texts_cons, text_closer (h t (by simp)), ih fun u hu => h u (by simp [hu])]
    cases hs : s.inBlock with
    | true => simp [hs]
    | false =>
      simp only [Tally.plus, hs, Bool.false_eq_true, if_false, length_cons, Tally.mk.injEq,
        true_and]
      omega

namespace Sheet

/-- **The rendered sheet**, whatever is on it, is balanced exactly when the lines before the closers
have as many braces open as there are scopes, or none if they end inside a block comment. -/
lemma opens_eq_closes_iff (h : ∀ t ∈ s.scopes, IsCloser t) :
    (Braces.ofText s.render).opens = (Braces.ofText s.render).closes ↔
      (tallyOf (s.allImports ++ s.bodyTexts)).balance =
        if (tallyOf (s.allImports ++ s.bodyTexts)).inBlock then 0 else (s.depth : Int) := by
  have hread : ({} : Tally).text s.render =
      (tallyOf (s.allImports ++ s.bodyTexts)).texts s.scopes := by
    rw [Tally.text_render, tallyOf, Tally.texts_append]
    rfl
  have hbalance := Tally.balance_ofText s.render
  rw [hread, texts_closers h, Braces.balance] at hbalance
  have hiff : (Braces.ofText s.render).opens = (Braces.ofText s.render).closes ↔
      ((Braces.ofText s.render).opens : Int) - (Braces.ofText s.render).closes = 0 := by omega
  rw [hiff, hbalance]
  cases (tallyOf (s.allImports ++ s.bodyTexts)).inBlock with
  | true => simp
  | false =>
    simp only [Tally.plus, Bool.false_eq_true, if_false, depth]
    omega

lemma scopes_emitAll (s : Sheet) (lines : List Text) : (s.emitAll lines).scopes = s.scopes := by
  induction lines generalizing s with
  | nil => rfl
  | cons line lines ih => exact ih (s.emit line)

lemma isCloser_perform (h : ∀ t ∈ s.scopes, IsCloser t)
    (hc : ∀ line closer, c = .openScope line closer → IsCloser closer) :
    ∀ t ∈ (s.perform c).scopes, IsCloser t := by
  cases c with
  | addImport statement | comment text => exact h
  | emit lines =>
    rw [perform, scopes_emitAll]
    exact h
  | blank =>
    rw [perform, blank]
    split
    · split_ifs <;> exact h
    · exact h
  | openScope line closer => exact forall_mem_cons.2 ⟨hc line closer rfl, h⟩
  | chain line =>
    cases hscopes : s.scopes with
    | nil =>
      rw [perform, chain, hscopes]
      exact forall_mem_cons.2 ⟨.inl rfl, h⟩
    | cons closer outer =>
      rw [perform, chain_of_scopes hscopes]
      exact hscopes ▸ h
  | closeScope =>
    cases hscopes : s.scopes with
    | nil =>
      rw [perform, closeScope_of_none hscopes]
      exact h
    | cons closer outer =>
      rw [perform, closeScope_of_scopes hscopes]
      exact fun t ht => h t (hscopes ▸ mem_cons_of_mem _ ht)
  | insert position lines =>
    rw [perform, insert?]
    cases s.depthAt? position <;> exact h

lemma isCloser_performAll (h : ∀ t ∈ s.scopes, IsCloser t)
    (hcalls : ∀ line closer, .openScope line closer ∈ calls → IsCloser closer) :
    ∀ t ∈ (s.performAll calls).scopes, IsCloser t := by
  induction calls generalizing s with
  | nil => exact h
  | cons c calls ih =>
    refine ih (isCloser_perform h fun line closer hc => hcalls line closer (by simp [hc])) ?_
    exact fun line closer hc => hcalls line closer (by simp [hc])

/-! ## Accounts -/

/-- Where lines can be put in without changing how the lines after them are read. -/
def SettledAt (s : Sheet) (position : Nat) : Prop :=
  position ≤ s.body.length ∧ Settled (s.bodyTexts.take position)

/-- The body has as many braces open as there are scopes, and `n` more. -/
structure Accounted (n : Int) (s : Sheet) : Prop where
  tally : tallyOf s.bodyTexts = ⟨false, s.depth + n⟩
  closers : ∀ t ∈ s.scopes, IsCloser t

end Sheet

namespace Call

/-- The texts that a call puts on the body. -/
def texts : Call → List Text
  | .emit lines | .insert _ lines => lines
  | .comment text => [if text.isEmpty then "//" else "// " ++ text]
  | .openScope line _ | .chain line => [line]
  | .addImport _ | .blank | .closeScope => []

/-- By how much the braces of a call are off. -/
def excess (c : Call) : Int :=
  (tallyOf c.texts).balance - match c with
    | .openScope _ _ => 1
    | _ => 0

/-- By how much the braces of some calls are off in total. -/
def excesses (calls : List Call) : Int := (calls.map excess).sum

@[simp] lemma excesses_nil : excesses [] = 0 := rfl

@[simp] lemma excesses_cons (c : Call) (calls : List Call) :
    excesses (c :: calls) = c.excess + excesses calls := by
  simp [excesses]

@[simp] lemma excesses_append (calls calls' : List Call) :
    excesses (calls ++ calls') = excesses calls + excesses calls' := by
  simp [excesses]

end Call

namespace Sheet

/-- Whether a call can be booked by its excess: a scope that it opens is closed by a brace, a scope
that it chains is open, and lines are put in where nothing is hidden. -/
def Ready (s : Sheet) : Call → Prop
  | .openScope _ closer => IsCloser closer
  | .chain _ => s.scopes ≠ []
  | .insert position _ => ∃ p : Nat, position = p ∧ s.SettledAt p
  | .addImport _ | .emit _ | .comment _ | .blank | .closeScope => True

lemma body_emitAll (s : Sheet) (lines : List Text) :
    (s.emitAll lines).body = s.body ++ lines.map (Line.mk s.depth) := by
  induction lines generalizing s with
  | nil => simp [emitAll]
  | cons line lines ih =>
    have hstep := ih (s.emit line)
    have hemit : (s.emit line).body = s.body ++ [⟨s.depth, line⟩] := rfl
    rw [hemit, append_assoc] at hstep
    exact hstep

lemma bodyTexts_emitAll (s : Sheet) (lines : List Text) :
    (s.emitAll lines).bodyTexts = s.bodyTexts ++ lines := by
  rw [bodyTexts, body_emitAll]
  simp [bodyTexts, Function.comp_def]

lemma map_text_insertLines (d : Nat) (lines : List Text) {body : List Line} {p : Nat}
    (hp : p ≤ body.length) :
    (insertLines d body p lines).map Line.text =
      (body.map Line.text).take p ++ lines ++ (body.map Line.text).drop p := by
  induction lines generalizing body p with
  | nil => simp [insertLines]
  | cons line lines ih =>
    have hneg : ¬((p : Int) < 0) := by omega
    have hline : (insertLine body p ⟨d, line⟩).map Line.text =
        ((body.map Line.text).take p ++ [line]) ++ (body.map Line.text).drop p := by
      simp only [insertLine, if_neg hneg]
      simp
    have hlength : ((body.map Line.text).take p ++ [line]).length = p + 1 := by
      simp [min_eq_left hp]
    have hp' : p + 1 ≤ (insertLine body p ⟨d, line⟩).length := by
      have := congrArg length hline
      rw [length_map, length_append] at this
      omega
    have hcast : (p : Int) + 1 = ((p + 1 : Nat) : Int) := by omega
    rw [insertLines, hcast, ih hp', hline, take_left' hlength, drop_left' hlength]
    simp

/-- All calls but insertions write at the end of the body. -/
lemma body_prefix_perform (s : Sheet) (hc : ∀ p lines, c ≠ .insert p lines) :
    s.body <+: (s.perform c).body := by
  have hadd : ∀ line, s.body <+: s.body ++ [line] := fun line => prefix_append s.body [line]
  cases c with
  | insert position lines => exact absurd rfl (hc position lines)
  | addImport statement => exact prefix_rfl
  | emit lines => exact ⟨_, (body_emitAll s lines).symm⟩
  | comment text | openScope line closer => exact hadd _
  | blank =>
    rw [perform, blank]
    split
    · split_ifs
      · exact prefix_rfl
      · exact hadd _
    · exact prefix_rfl
  | chain line =>
    rw [perform, chain]
    split <;> exact hadd _
  | closeScope =>
    rw [perform, closeScope]
    split
    · exact prefix_rfl
    · exact hadd _

lemma bodyTexts_prefix_perform (s : Sheet) (hc : ∀ p lines, c ≠ .insert p lines) :
    s.bodyTexts <+: (s.perform c).bodyTexts :=
  (s.body_prefix_perform hc).map Line.text

lemma body_prefix_performAll (s : Sheet) (hcalls : ∀ c ∈ calls, ∀ p lines, c ≠ .insert p lines) :
    s.body <+: (s.performAll calls).body := by
  induction calls generalizing s with
  | nil => exact prefix_rfl
  | cons c calls ih =>
    exact (s.body_prefix_perform (hcalls c (by simp))).trans (ih _ fun d hd => hcalls d (by simp [hd]))

lemma bodyTexts_prefix_performAll (s : Sheet) (hcalls : ∀ c ∈ calls, ∀ p lines, c ≠ .insert p lines) :
    s.bodyTexts <+: (s.performAll calls).bodyTexts :=
  (s.body_prefix_performAll hcalls).map Line.text

lemma SettledAt.mono {position : Nat} (h : s.SettledAt position) (hbody : s.bodyTexts <+: s'.bodyTexts) :
    s'.SettledAt position := by
  obtain ⟨ts, hts⟩ := hbody
  have hle : position ≤ s.bodyTexts.length := by
    rw [bodyTexts, length_map]
    exact h.1
  refine ⟨?_, ?_⟩
  · have hlength : s'.bodyTexts.length = s'.body.length := length_map ..
    rw [← hlength, ← hts, length_append]
    omega
  · rw [← hts, take_append_of_le_length hle]
    exact h.2

lemma exists_depthAt? (s : Sheet) (p : Nat) : ∃ d, s.depthAt? p = some d := by
  have hneg : ¬((p : Int) < 0) := by omega
  by_cases hend : (s.body.length : Int) ≤ p
  · exact ⟨s.depth, by rw [depthAt?, if_pos hend]⟩
  · have hlt : p < s.body.length := by omega
    refine ⟨(s.body.get ⟨p, hlt⟩).depth, ?_⟩
    simp only [depthAt?, if_neg hend, if_neg hneg, Int.toNat_natCast, getElem?_eq_getElem hlt]
    rfl

namespace Accounted

variable {n : Int} {s : Sheet} {c : Call}

variable (h : s.Accounted n)
include h

lemma write {m : Int} (hbody : s'.bodyTexts = s.bodyTexts ++ ts) (hts : Settled ts)
    (hdepth : (s'.depth : Int) + m = s.depth + n + (tallyOf ts).balance)
    (hclosers : ∀ t ∈ s'.scopes, IsCloser t) : s'.Accounted m := by
  refine ⟨?_, hclosers⟩
  rw [hbody, tallyOf_append h.tally, tallyOf_of_settled hts, Tally.plus, hdepth, Int.add_comm]

lemma insert {position : Int} {lines : List Text} (hready : s.Ready (.insert position lines))
    (hs : Settled lines) :
    (s.perform (.insert position lines)).Accounted (n + (tallyOf lines).balance) := by
  obtain ⟨p, rfl, hp, hsettled⟩ := hready
  obtain ⟨d, hd⟩ : ∃ d, s.perform (.insert p lines) =
      { s with body := insertLines d s.body p lines } := by
    obtain ⟨d, hd⟩ := s.exists_depthAt? p
    exact ⟨d, by rw [perform, insert?, hd]; rfl⟩
  have hbefore := tallyOf_of_settled hsettled
  have htally := h.tally
  rw [← take_append_drop p s.bodyTexts, tallyOf_append hbefore] at htally
  have hbody : (s.perform (.insert p lines)).bodyTexts =
      s.bodyTexts.take p ++ (lines ++ s.bodyTexts.drop p) := by
    rw [hd, bodyTexts, map_text_insertLines d lines hp, append_assoc]
    rfl
  refine ⟨?_, hd ▸ h.closers⟩
  have hplus : ∀ (x : Tally) (i j : Int), (x.plus i).plus j = (x.plus j).plus i := by
    simp only [Tally.plus, Tally.mk.injEq, true_and]
    omega
  rw [hbody, tallyOf_append hbefore, tallyOf_append (tallyOf_of_settled hs), hplus, htally,
    depth_perform, Tally.plus, Int.add_assoc]
  rfl

lemma chain {closer line : Text} {outer : List Text} (hscopes : s.scopes = closer :: outer)
    (hs : Settled [line]) : (s.chain line).Accounted (n + (tallyOf [line]).balance) := by
  have hdepth : s.depth = outer.length + 1 := by rw [depth, hscopes, length_cons]
  rw [chain_of_scopes hscopes]
  refine h.write (map_append ..) hs ?_ (hscopes ▸ h.closers)
  simp only [depth, length_cons, map_cons, map_nil] at hdepth ⊢
  omega

lemma closeScope : s.closeScope.Accounted n := by
  cases hscopes : s.scopes with
  | nil =>
    rw [closeScope_of_none hscopes]
    exact ⟨h.tally, h.closers⟩
  | cons closer outer =>
    have hclosers : ∀ t ∈ closer :: outer, IsCloser t := hscopes ▸ h.closers
    have hcloser : tallyOf [closer] = ⟨false, -1⟩ := text_closer (hclosers closer (by simp)) {}
    have hdepth : s.depth = outer.length + 1 := by rw [depth, hscopes, length_cons]
    rw [closeScope_of_scopes hscopes]
    refine h.write (map_append ..) ?_ ?_ fun t ht => hclosers t (by simp [ht])
    · exact congrArg Tally.inBlock hcloser
    · simp only [depth, map_cons, map_nil, hcloser] at hdepth ⊢
      omega

lemma blank : s.blank.Accounted n := by
  rw [Sheet.blank]
  split
  · split_ifs
    · exact h
    · exact h.write (map_append ..) (by decide) (Int.add_zero _).symm h.closers
  · exact h

/-- **One call** adds its excess. -/
lemma perform (hready : s.Ready c) (hs : Settled c.texts) : (s.perform c).Accounted (n + c.excess) := by
  have hdepth := depth_perform s c
  cases c with
  | addImport statement =>
    refine h.write (append_nil _).symm hs ?_ h.closers
    exact (Int.add_assoc ..).symm
  | emit lines =>
    refine h.write (bodyTexts_emitAll s lines) hs ?_ (scopes_emitAll s lines ▸ h.closers)
    rw [hdepth]
    simp only [levelAfter, Call.excess, Call.texts]
    omega
  | comment text =>
    refine h.write (map_append ..) hs ?_ h.closers
    rw [hdepth]
    simp only [levelAfter, Call.excess, Call.texts, map_cons, map_nil]
    omega
  | openScope line closer =>
    -- The depth and the excess are both off by the scope that is opened.
    refine h.write (map_append ..) hs ?_ (forall_mem_cons.2 ⟨hready, h.closers⟩)
    rw [hdepth]
    simp only [levelAfter, Call.excess, Call.texts, map_cons, map_nil]
    omega
  | chain line =>
    cases hscopes : s.scopes with
    | nil => exact absurd hscopes hready
    | cons closer outer =>
      have hexcess : (Call.chain line).excess = (tallyOf [line]).balance := Int.sub_zero _
      rw [hexcess]
      exact h.chain hscopes hs
  | insert position lines =>
    have hexcess : (Call.insert position lines).excess = (tallyOf lines).balance := Int.sub_zero _
    rw [hexcess]
    exact h.insert hready hs
  | blank =>
    have hexcess : n + Call.blank.excess = n := Int.add_zero n
    rw [hexcess]
    exact h.blank
  | closeScope =>
    have hexcess : n + Call.closeScope.excess = n := Int.add_zero n
    rw [hexcess]
    exact h.closeScope

/-- **A run of calls** adds their excesses up. -/
lemma performAll (hready : s.Along Ready calls) (hs : ∀ c ∈ calls, Settled c.texts) :
    (s.performAll calls).Accounted (n + Call.excesses calls) := by
  induction calls generalizing s n with
  | nil => simpa using h
  | cons c calls ih =>
    have hstep := h.perform hready.1 (hs c (by simp))
    have hrest := ih hstep hready.2 fun d hd => hs d (by simp [hd])
    rwa [Call.excesses_cons, ← Int.add_assoc]

lemma settledAt_mark : s.SettledAt s.mark := by
  refine ⟨le_refl _, ?_⟩
  have htake : s.bodyTexts.take s.mark = s.bodyTexts :=
    take_of_length_le (by rw [bodyTexts, length_map]; rfl)
  rw [Settled, htake, h.tally]

/-- **An accounted sheet** is balanced exactly when what it is off by and its imports cancel out. -/
lemma opens_eq_closes_iff (himports : ∀ i ∈ s.allImports, Settled [i]) :
    (Braces.ofText s.render).opens = (Braces.ofText s.render).closes ↔
      total s.allImports + n = 0 := by
  rw [Sheet.opens_eq_closes_iff h.closers, tallyOf_append (tallyOf_of_forall_settled himports), h.tally]
  simp only [Tally.plus, Bool.false_eq_true, if_false]
  omega

end Accounted

end Sheet

end Restage.TypeScript
