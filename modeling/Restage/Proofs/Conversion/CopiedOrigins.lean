import Restage.Proofs.Conversion.CopiedParts
import Restage.Proofs.Path.Names

/-!
# Where copied parts come from

What a reader leaves is an end of its text, and what it reads stands in it.  So every part that a
rule copies stands in the text of the statement, but for the name of the class, which comes from the
context (`ruleCopies_origin`).
-/

namespace Restage

open List Option

/-! ## What readers leave and read -/

namespace Text

variable {t r name : Text}

lemma oneOf?_eq_some {choices : List Text} (h : oneOf? choices t = some (name, r)) : name ∈ choices ∧ r <:+ t := by
  obtain ⟨w, hw, hread⟩ := exists_of_findSome?_eq_some h
  obtain ⟨_, hread, heq⟩ := map_eq_some_iff.1 hread
  cases heq
  exact ⟨hw, literal?_isSuffix hread⟩

lemma dropFinalNewline_isPrefix (t : Text) : dropFinalNewline t <+: t := by
  obtain ⟨ending, -, ht⟩ := dropFinalNewline_eq t
  exact ⟨ending, ht.symm⟩

lemma dropFinal?_isPrefix {c : Char} (h : dropFinal? c t = some r) : r <+: t :=
  ⟨[c], (dropFinal?_eq_some_iff.1 h).symm⟩

lemma beforeSemicolon?_isPrefix (h : beforeSemicolon? t = some r) : r <+: t := by
  obtain ⟨gap, ending, rfl, -⟩ := beforeSemicolon?_eq_some h
  rw [append_assoc]
  exact prefix_append _ _

lemma callArguments?_isPrefix (h : callArguments? t = some r) : r <+: t := by
  obtain ⟨gap, ending, rfl, -⟩ := callArguments?_eq_some h
  exact prefix_append _ _

lemma initialValue?_isInfix (h : initialValue? t = some r) : r <:+: t := by
  obtain ⟨body, hbody, h⟩ := bind_eq_some_iff.1 h
  have hbody : body <:+: t := (dropFinal?_isPrefix hbody).isInfix.trans (dropFinalNewline_isPrefix t).isInfix
  dsimp only at h
  split_ifs at h
  · obtain ⟨c, hc, rfl⟩ := map_eq_some_iff.1 h
    obtain ⟨a, b, rfl⟩ := append_of_mem (mem_reverse.1 (mem_of_find?_eq_some hc))
    exact IsInfix.trans ⟨a, b, by simp⟩ hbody
  · cases h
    exact (trim_isInfix body).trans hbody

end Text

namespace Java

open Text

variable {t r : Text}

lemma someContent?_isInfix (h : someContent? t = some r) : r <:+: t := by
  rw [someContent?] at h
  split_ifs at h
  · obtain ⟨c, hc, rfl⟩ := map_eq_some_iff.1 h
    obtain ⟨a, rfl⟩ := getLast?_eq_some_iff.1 hc
    exact (suffix_append _ _).isInfix
  · cases h
    exact trim_isInfix t

lemma flatStatement?_isPrefix (h : flatStatement? t = some r) : r <+: t := by
  obtain ⟨gap, ending, rfl, -⟩ := flatStatement?_eq_some h
  exact prefix_append _ _

lemma receiverCall?_isInfix {names : List Text} {arguments? : Text → Option Text} {call : ReceiverCall}
    (harguments : ∀ {u r : Text}, arguments? u = some r → r <+: u)
    (h : receiverCall? names arguments? t = some call) : call.arguments <:+: t := by
  obtain ⟨rest, rfl, -, hrest⟩ := receiverCall?_eq_some h
  have hsuffix : rest <:+ call.receiver ++ '.' :: (call.method ++ '(' :: rest) :=
    ⟨call.receiver ++ '.' :: (call.method ++ ['(']), by simp⟩
  exact (harguments hrest).isInfix.trans hsuffix.isInfix

lemma splitArguments_isInfix {u : Text} (h : u ∈ splitArguments t) : u <:+: t := by
  rw [splitArguments] at h
  split_ifs at h
  · cases h
  · obtain ⟨pieces, hjoin, hread, -⟩ := exists_pieces t
    obtain ⟨x, hx, rfl⟩ := mem_map.1 (hread ▸ h : u ∈ pieces.map trim)
    rw [hjoin]
    exact (trim_isInfix x).trans (TypeScript.infix_join _ hx)

lemma plainLiteral_isPrefix (t : Text) : plainLiteral t <+: t := by
  unfold plainLiteral
  split
  · split_ifs
    · exact dropLast_prefix t
    · exact prefix_refl t
  · exact prefix_refl t

lemma splitCall?_isInfix {callee args : Text} (h : splitCall? t = some (callee, args)) :
    ∃ body, t = body ++ [';'] ∧ callee <:+: body ∧ args <:+: body := by
  obtain ⟨name, gap, rfl, rfl, -⟩ := splitCall?_parts h
  refine ⟨name ++ '(' :: (args ++ ')' :: gap), by simp, ?_, ⟨name ++ ['('], ')' :: gap, by simp⟩⟩
  exact (trim_isInfix name).trans (prefix_append _ _).isInfix

end Java

/-! ## What the shapes of statements hold -/

variable {r : Text} {found : NewObject} {c : Copied} {args : List Text}

namespace Conversion

open Text Java

variable {t : Text}

lemma driverWait?_isInfix {wait : DriverWait} (h : driverWait? t = some wait) : wait.timeout <:+: t := by
  obtain ⟨r, hr, h⟩ := bind_eq_some_iff.1 h
  obtain ⟨new, hnew, hr⟩ := bind_eq_some_iff.1 hr
  obtain ⟨inside, hinside, h⟩ := bind_eq_some_iff.1 h
  obtain ⟨⟨_, behind⟩, hbehind, h⟩ := bind_eq_some_iff.1 h
  obtain ⟨rest, hrest, h⟩ := bind_eq_some_iff.1 h
  obtain ⟨timeout, htimeout, h⟩ := bind_eq_some_iff.1 h
  obtain ⟨_, -, h⟩ := bind_eq_some_iff.1 h
  obtain ⟨_, -, h⟩ := bind_eq_some_iff.1 h
  obtain ⟨_, -, h⟩ := bind_eq_some_iff.1 h
  obtain ⟨_, -, h⟩ := bind_eq_some_iff.1 h
  obtain ⟨_, -, h⟩ := bind_eq_some_iff.1 h
  obtain ⟨_, -, h⟩ := bind_eq_some_iff.1 h
  obtain ⟨_, -, h⟩ := bind_eq_some_iff.1 h
  cases h
  calc timeout <:+: rest.takeWhile isTimeoutChar := someContent?_isInfix htimeout
    _ <:+: rest := ( takeWhile_prefix _).isInfix
    _ <:+: behind := ((literal?_isSuffix hrest).trans (blanks_isSuffix behind)).isInfix
    _ <:+: inside := ((run?_isSuffix hbehind).trans (blanks_isSuffix inside)).isInfix
    _ <:+: new := ((literal?_isSuffix hinside).trans (someBlanks?_isSuffix hr)).isInfix
    _ <:+: t := (literal?_isSuffix hnew).isInfix

lemma sleepDuration?_isInfix {given : Text} (h : sleepDuration? t = some given) : given <:+: t := by
  obtain ⟨⟨callee, r⟩, hcut, h⟩ := bind_eq_some_iff.1 h
  dsimp only at h
  split_ifs at h
  obtain ⟨inside, hinside, hgiven⟩ := bind_eq_some_iff.1 h
  obtain ⟨rfl, -⟩ := cutFirst?_spec hcut
  have hsuffix : r <:+ callee ++ '(' :: r := ⟨callee ++ ['('], by simp⟩
  exact (someContent?_isInfix hgiven).trans ((flatStatement?_isPrefix hinside).isInfix.trans hsuffix.isInfix)

lemma elementAction?_isInfix {found : ElementAction} (h : elementAction? t = some found) :
    found.before <:+: t ∧ found.call.arguments <:+: t := by
  obtain ⟨start, hstart, h⟩ := exists_of_findSome?_eq_some h
  obtain ⟨call, hcall, rfl⟩ := map_eq_some_iff.1 h
  obtain ⟨before, rfl, -⟩ := exists_precedes hstart
  refine ⟨?_, (receiverCall?_isInfix callArguments?_isPrefix hcall).trans (suffix_append _ _).isInfix⟩
  rw [consumed_append]
  exact (prefix_append _ _).isInfix

lemma assertion?_isInfix {a : Assertion} (h : assertion? t = some a) : a.arguments <:+: t := by
  obtain ⟨⟨soft, behind⟩, hsoft, h⟩ := bind_eq_some_iff.1 h
  obtain ⟨⟨claim, inside⟩, hclaim, h⟩ := bind_eq_some_iff.1 h
  obtain ⟨args, harguments, h⟩ := bind_eq_some_iff.1 h
  cases h
  obtain ⟨_, -, hread⟩ := exists_of_findSome?_eq_some hclaim
  obtain ⟨_, hinside, hread⟩ := map_eq_some_iff.1 hread
  cases hread
  have hbehind : behind <:+ ((assertionClasses.findSome? fun c => literal? (c ++ ".") t).getD t) := by
    rcases or_eq_some_iff.1 hsoft with hread | ⟨-, hread⟩
    · obtain ⟨_, hread, heq⟩ := map_eq_some_iff.1 hread
      cases heq
      exact literal?_isSuffix hread
    · obtain ⟨_, hread, heq⟩ := map_eq_some_iff.1 hread
      cases heq
      exact literal?_isSuffix hread
  have hclass : ((assertionClasses.findSome? fun c => literal? (c ++ ".") t).getD t) <:+ t := by
    cases hfound : assertionClasses.findSome? fun c => literal? (c ++ ".") t with
    | none => exact suffix_refl t
    | some r =>
      obtain ⟨_, -, hread⟩ := exists_of_findSome?_eq_some hfound
      exact literal?_isSuffix hread
  exact (callArguments?_isPrefix harguments).isInfix.trans
    ((literal?_isSuffix hinside).trans (hbehind.trans hclass)).isInfix

lemma driver?_isSuffix (h : driver? t = some r) : r <:+ t := by
  have hbare : (literal? "this." t).getD t <:+ t := by
    cases hthis : literal? "this." t with
    | none => exact suffix_refl t
    | some bare => exact literal?_isSuffix hthis
  rcases or_eq_some_iff.1 h with hread | ⟨-, hread⟩
  · exact (literal?_isSuffix hread).trans hbare
  · exact (literal?_isSuffix hread).trans hbare

lemma returned?_isInfix {value : Text} (h : returned? t = some value) : value <:+: t := by
  obtain ⟨r, hr, h⟩ := bind_eq_some_iff.1 h
  obtain ⟨body, hbody, h⟩ := bind_eq_some_iff.1 h
  dsimp only at h
  split_ifs at h
  · cases h
    exact nil_infix
  · cases h
    exact (trim_isInfix body).trans ((beforeSemicolon?_isPrefix hbody).isInfix.trans (literal?_isSuffix hr).isInfix)

lemma receiverAndName_isInfix (callee : Text) :
    (receiverAndName callee).1 <:+: callee ∧ (receiverAndName callee).2 <:+: callee := by
  refine ⟨?_, ?_⟩
  · rw [receiverAndName]
    cases hbefore : beforeLast? '.' callee with
    | none => exact nil_infix
    | some before =>
      obtain ⟨rest, rfl, -⟩ := beforeLast?_eq_some_iff.1 hbefore
      exact (prefix_append _ _).isInfix
  · have h : callee.reverse.takeWhile (· ≠ '.') <+: callee.reverse := takeWhile_prefix _
    rw [← reverse_suffix, reverse_reverse] at h
    exact h.isInfix

/-! ## What each rule copies -/

/-- Everything that is copied stands in a text. -/
def CopiedFrom (t : Text) (copies : List Copied) : Prop := ∀ c ∈ copies, c.source <:+: t

namespace CopiedFrom

variable {u : Text} {copies copies' : List Copied}

lemma nil : CopiedFrom t [] := by
  intro c hc
  cases hc

lemma cons (hc : c.source <:+: t) (h : CopiedFrom t copies) : CopiedFrom t (c :: copies) :=
  forall_mem_cons.2 ⟨hc, h⟩

lemma append (h : CopiedFrom t copies) (h' : CopiedFrom t copies') : CopiedFrom t (copies ++ copies') :=
  forall_mem_append.2 ⟨h, h'⟩

lemma mono (h : CopiedFrom u copies) (hu : u <:+: t) : CopiedFrom t copies := fun c hc => (h c hc).trans hu

lemma take (h : CopiedFrom t copies) (n : Nat) : CopiedFrom t (copies.take n) :=
  fun c hc => h c (mem_of_mem_take hc)

lemma map {l : List Text} {f : Text → Copied} (hf : ∀ u, (f u).source = u) (h : ∀ u ∈ l, u <:+: t) :
    CopiedFrom t (l.map f) := by
  intro c hc
  obtain ⟨u, hu, rfl⟩ := mem_map.1 hc
  rw [hf]
  exact h u hu

end CopiedFrom

section Copies

variable (t : Text) (ctx : Context)

lemma durationCopies_from : CopiedFrom t (durationCopies t) := by
  rw [durationCopies]
  split_ifs
  · exact .nil
  · exact .cons (trim_isInfix t) .nil

lemma argumentCopies_from : CopiedFrom t (argumentCopies t) :=
  .map (fun _ => rfl) fun _ => splitArguments_isInfix

lemma elementWaitCopies_from : CopiedFrom t (elementWaitCopies t) := by
  rw [elementWaitCopies]
  split
  next call hcall => exact (durationCopies_from _).mono (receiverCall?_isInfix flatStatement?_isPrefix hcall)
  · exact .nil

lemma driverWaitCopies_from : CopiedFrom t (driverWaitCopies t) := by
  rw [driverWaitCopies]
  split
  next wait hwait => exact (durationCopies_from _).mono (driverWait?_isInfix hwait)
  · exact .nil

lemma sleepCopies_from : CopiedFrom t (sleepCopies t) := by
  rw [sleepCopies]
  split
  next given hgiven => exact (durationCopies_from _).mono (sleepDuration?_isInfix hgiven)
  · exact .nil

lemma beforeCopies_from : CopiedFrom t (beforeCopies t) := by
  rw [beforeCopies]
  split_ifs
  · exact .nil
  split
  next type name rest hdeclared => exact .cons ((declaredVariable?_word hdeclared).stands.trans (trim_isInfix t)) .nil
  · exact .cons ((trim_isInfix _).trans ((dropEnd_isPrefix _ _).isInfix.trans (trim_isInfix t))) .nil

lemma actionCopies_from (action : Text) (h : ∀ u ∈ args, u <:+: t) :
    CopiedFrom t (actionCopies ctx action args) := by
  unfold actionCopies
  split_ifs
  · exact .nil
  split
  next argument _ =>
    have hargument := h argument mem_cons_self
    split_ifs
    · exact .cons hargument .nil
    · exact .cons hargument .nil
  · exact .map (fun _ => rfl) h

lemma elementActionCopies_from : CopiedFrom t (elementActionCopies t ctx) := by
  rw [elementActionCopies]
  split
  next found hfound =>
    obtain ⟨hbefore, harguments⟩ := elementAction?_isInfix hfound
    refine ((beforeCopies_from _).mono hbefore).append (actionCopies_from _ _ _ fun u hu => ?_)
    exact (splitArguments_isInfix hu).trans harguments
  · exact .nil

lemma messageCopies_from (h : ∀ u ∈ args, u <:+: t) :
    CopiedFrom t (args.head?.toList.map .plain) :=
  .map (fun _ => rfl) fun u hu => h u (mem_of_head? (mem_toList.1 hu))

lemma comparisonCopies_from (h : ∀ u ∈ args, u <:+: t) :
    CopiedFrom t (comparisonCopies args) := by
  rcases args with _ | ⟨actual, _ | ⟨expected, rest⟩⟩
  · exact .nil
  · exact .nil
  · simp only [forall_mem_cons] at h
    exact .cons h.1 ((messageCopies_from t h.2.2).append (.cons h.2.1 .nil))

lemma valueTestCopies_from (claim : Claim) (h : ∀ u ∈ args, u <:+: t) :
    CopiedFrom t (valueTestCopies ctx claim args) := by
  cases args with
  | nil => exact .nil
  | cons condition rest =>
    rw [forall_mem_cons] at h
    refine .append ?_ (messageCopies_from t h.2)
    split_ifs
    · exact .nil
    · exact .cons h.1 .nil

lemma assertionCopies_from : CopiedFrom t (assertionCopies t ctx) := by
  rw [assertionCopies]
  split
  next a ha =>
    have harguments : ∀ u ∈ splitArguments a.arguments, u <:+: t :=
      fun u hu => (splitArguments_isInfix hu).trans (assertion?_isInfix ha)
    cases a.claim with
    | equals | notEquals => exact comparisonCopies_from t harguments
    | isTrue | isFalse | isNull | isNotNull => exact valueTestCopies_from t ctx _ harguments
  · exact .nil

lemma elementAssertionCopies_from : CopiedFrom t (elementAssertionCopies t) := by
  rw [elementAssertionCopies]
  split
  next call hcall =>
    split_ifs
    · exact ((argumentCopies_from _).mono (receiverCall?_isInfix callArguments?_isPrefix hcall)).take 1
    · exact .nil
  · exact .nil

lemma logCopies_from : CopiedFrom t (logCopies t) := by
  rw [logCopies]
  split
  next args harguments =>
    obtain ⟨⟨name, r⟩, hname, hread⟩ := bind_eq_some_iff.1 harguments
    have hsuffix : r <:+ t := by
      rw [(calledName?_eq_some hname).2]
      exact ⟨name ++ ['('], by simp⟩
    exact ((argumentCopies_from _).mono ((callArguments?_isPrefix hread).isInfix.trans hsuffix.isInfix)).take 1
  · exact .nil

lemma navigateCopies_from : CopiedFrom t (navigateCopies t) := by
  rw [navigateCopies]
  split
  next address haddress =>
    obtain ⟨r, hr, haddress⟩ := bind_eq_some_iff.1 haddress
    obtain ⟨inside, hinside, haddress⟩ := bind_eq_some_iff.1 haddress
    have hsuffix : inside <:+ r := by
      rcases or_eq_some_iff.1 hinside with hread | ⟨-, hread⟩
      · exact literal?_isSuffix hread
      · exact literal?_isSuffix hread
    refine .cons ((callArguments?_isPrefix haddress).isInfix.trans ?_) .nil
    exact (hsuffix.trans (driver?_isSuffix hr)).isInfix
  · exact .nil

lemma newPageCopies_from : CopiedFrom t (newPageCopies t) := by
  rw [newPageCopies]
  split
  next found hfound =>
    obtain ⟨hname, hclass⟩ := newObject?_words hfound
    exact .cons hname.stands (.cons hclass.stands .nil)
  · exact .nil

lemma chainedCopies_from : CopiedFrom t (chainedCopies t) := by
  rw [chainedCopies]
  split
  next className call hfound =>
    obtain ⟨hclass, -, -, hcall, -⟩ := chainedCall?_parts hfound
    split
    next callee args hsplit =>
      obtain ⟨body, hbody, hcallee, harguments⟩ := splitCall?_isInfix hsplit
      obtain rfl := append_cancel_right hbody
      exact .cons hclass.stands (.cons (hcallee.trans hcall) ((argumentCopies_from _).mono (harguments.trans hcall)))
    · exact .nil
  · exact .nil

lemma thrownCopies_from : CopiedFrom t (thrownCopies t ctx) := by
  rw [thrownCopies]
  split
  next name r hfound =>
    obtain ⟨start, hstart, hfound⟩ := bind_eq_some_iff.1 hfound
    obtain ⟨behind, hbehind, hstart⟩ := bind_eq_some_iff.1 hstart
    have hsuffix : start <:+ t := (someBlanks?_isSuffix hstart).trans (literal?_isSuffix hbehind)
    obtain ⟨hname, hr⟩ := constructed?_parts hfound
    split
    next args harguments =>
      refine .append ?_ ((argumentCopies_from _).mono ?_)
      · split_ifs
        · exact .cons (hname.stands.trans hsuffix.isInfix) .nil
        · exact .nil
      · exact (callArguments?_isPrefix harguments).isInfix.trans (hr.trans hsuffix).isInfix
    · exact .nil
  · exact .nil

lemma returnedCopies_from : CopiedFrom t (returnedCopies t ctx) := by
  rw [returnedCopies]
  split
  next value hvalue =>
    have hvalue := returned?_isInfix hvalue
    split_ifs
    · exact .nil
    · exact .cons hvalue .nil
    · refine .map (fun _ => rfl) fun name hname => ?_
      obtain ⟨⟨name', r⟩, hfound, hname⟩ := bind_eq_some_iff.1 (mem_toList.1 hname)
      obtain ⟨_, -, hname⟩ := bind_eq_some_iff.1 hname
      cases hname
      exact (constructed?_parts hfound).1.stands.trans hvalue
  · exact .nil

lemma literalCopies_from : CopiedFrom t (literalCopies t) := by
  rw [literalCopies]
  split
  next found hfound =>
    obtain ⟨hname, rest, hvalue, hrest⟩ := initialised?_parts hfound
    refine .cons hname.stands (.cons ?_ .nil)
    exact (plainLiteral_isPrefix _).isInfix.trans
      ((trim_isInfix _).trans ((initialValue?_isInfix hvalue).trans hrest.isInfix))
  · exact .nil

lemma calledCopies_from (h : c ∈ calledCopies t ctx) : c.source <:+: t ∨ ctx.className = some c.source := by
  rw [calledCopies] at h
  split at h
  next callee raw hfound =>
    obtain ⟨statement, hstatement, hsplit⟩ := bind_eq_some_iff.1 hfound
    obtain ⟨⟨_, rest⟩, -, hstatement⟩ := bind_eq_some_iff.1 hstatement
    obtain ⟨_, -, hstatement⟩ := bind_eq_some_iff.1 hstatement
    split_ifs at hstatement
    cases hstatement
    obtain ⟨body, hbody, hcallee, hraw⟩ := splitCall?_isInfix hsplit
    have hpart : body <:+: t := by
      refine IsInfix.trans ?_ (dropFinalNewline_isPrefix t).isInfix
      rw [hbody]
      exact (prefix_append _ _).isInfix
    obtain ⟨hreceiver, hname⟩ := receiverAndName_isInfix callee
    have hname := hname.trans (hcallee.trans hpart)
    rcases mem_append.1 h with h | h
    · split_ifs at h
      · rw [ownCalleeCopies] at h
        split_ifs at h
        · rw [mem_singleton.1 h]
          exact .inl hname
        · split at h
          next className hclass =>
            rcases mem_cons.1 h with rfl | h
            · exact .inr hclass
            · rw [mem_singleton.1 h]
              exact .inl hname
          · cases h
      · rcases mem_cons.1 h with rfl | h
        · exact .inl (hreceiver.trans (hcallee.trans hpart))
        · rw [mem_singleton.1 h]
          exact .inl hname
    · exact .inl (((argumentCopies_from raw) c h).trans (hraw.trans hpart))
  · cases h

end Copies

/-- **Every part that a rule copies** stands in the text of the statement, or it is the name of the
class. -/
lemma ruleCopies_origin {rule : Text} {ctx : Context} (h : c ∈ ruleCopies rule t ctx) :
    c.source <:+: t ∨ ctx.className = some c.source := by
  rw [ruleCopies] at h
  cases hget : copyingRules.get? rule with
  | none =>
    rw [hget] at h
    cases h
  | some copies =>
    rw [hget] at h
    have hall : ∀ copies ∈ copyingRules.map (·.2), ∀ c ∈ copies t ctx,
        c.source <:+: t ∨ ctx.className = some c.source := by
      simp only [copyingRules, map_cons, forall_mem_cons]
      exact ⟨fun c hc => .inl (elementWaitCopies_from t c hc), fun c hc => .inl (driverWaitCopies_from t c hc),
        fun c hc => .inl (elementActionCopies_from t ctx c hc), fun c hc => .inl (sleepCopies_from t c hc),
        fun c hc => .inl (assertionCopies_from t ctx c hc), fun c hc => .inl (elementAssertionCopies_from t c hc),
        fun c hc => .inl (logCopies_from t c hc), fun c hc => .inl (navigateCopies_from t c hc),
        fun c hc => .inl (newPageCopies_from t c hc), fun c hc => .inl (chainedCopies_from t c hc),
        fun c hc => .inl (thrownCopies_from t ctx c hc), fun c hc => .inl (returnedCopies_from t ctx c hc),
        fun c hc => .inl (literalCopies_from t c hc), fun c hc => calledCopies_from t ctx hc, by simp⟩
    exact hall copies (Lookup.mem_of_table_get? hget) c h

end Conversion

end Restage
