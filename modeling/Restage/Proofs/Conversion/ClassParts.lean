import Restage.Proofs.Conversion.Nesting

/-!
# The parts of a file that belong to its classes

The outermost frame of a walk is entered where nothing is open, and it stays until the source is
above its body; then nothing is open again.  So a file falls into parts, and each state of the walk
in which a class is the outermost construct lies in the part of that class (`exists_classPart`).
What the class becomes is the part of the calls that its statements make.
-/

namespace Restage.Conversion

open Text Java TypeScript List

/-! ## The outermost frame -/

variable {f : Frame} {around : Surroundings} {w : Walk} {before rest : List Statement} {s : Statement}
  {w' : Walk} {statements : List Statement}

namespace Walk

variable {around : Surroundings} {w w' : Walk} {s : Statement}

lemma pending_leave (w : Walk) (recognizer : Option Recognizer) (c : Construct) :
    (w.leave recognizer c).pending = w.pending := by
  cases c with
  | method name mark =>
    simp only [leave, finishMethod]
    split <;> rfl
  | classBody info style => cases style <;> rfl
  | skipped | block | commented => rfl

lemma unwindFrames_spec (recognizer : Option Recognizer) (w : Walk) (frames : List Frame) :
    (unwindFrames recognizer w frames).depth = w.depth ∧
      (unwindFrames recognizer w frames).pending = w.pending ∧
      (unwindFrames recognizer w frames).frames = frames.dropWhile (w.depth < ·.depth) := by
  induction frames generalizing w with
  | nil => exact ⟨rfl, rfl, rfl⟩
  | cons f outer ih =>
    rw [unwindFrames]
    split_ifs with hdeep
    · have hleft := ih (w.leave recognizer f.construct)
      rw [depth_leave, pending_leave] at hleft
      rw [dropWhile_cons_of_pos (by simpa using hdeep)]
      exact hleft
    · rw [dropWhile_cons_of_neg (by simpa using hdeep)]
      exact ⟨rfl, rfl, rfl⟩

/-- A comment changes nothing but the sheet. -/
lemma step_comment (hcomment : s.isComment = true) (h : w.step around s = .ok w') :
    w'.frames = w.frames ∧ w'.depth = w.depth ∧ w'.pending = w.pending ∧ w'.context = w.context := by
  rcases step_cases h with ⟨-, rfl⟩ | ⟨hcode, -⟩
  · split_ifs <;> exact ⟨rfl, rfl, rfl, rfl⟩
  · rw [hcomment] at hcode
    cases hcode

lemma step_code (hcode : s.isComment = false) (h : w.step around s = .ok w') :
    ∃ inside, (w.count s).within around w.depth s w.frames.head? = .ok inside ∧
      w' = unwindFrames around.recognizer inside inside.frames := by
  rcases step_cases h with ⟨hcomment, -⟩ | ⟨-, hinside⟩
  · rw [hcode] at hcomment
    cases hcomment
  · exact hinside

/-- A statement counts its braces, leaves the frames that the source has closed, and enters at most
one construct, which lies deeper than all that is open. -/
lemma Nests.frames_step (hn : w.Nests) (hcode : s.isComment = false) (h : w.step around s = .ok w') :
    w'.depth = w.depth + s.opens - s.closes ∧ ∃ pushed : Option Construct,
      w'.frames = (pushed.map (Frame.mk · w'.depth)).toList ++ w.frames.dropWhile (w'.depth < ·.depth) ∧
      (pushed.isSome = true → ∀ f ∈ w.frames, f.depth < w'.depth) := by
  obtain ⟨inside, hinside, rfl⟩ := step_code hcode h
  obtain ⟨pushed, henters, hleaving⟩ := hn.within hinside
  obtain ⟨hdepth, -, hframes⟩ := unwindFrames_spec around.recognizer inside inside.frames
  have hcounted : inside.depth = w.depth + s.opens - s.closes := henters.depth.trans (w.depth_count s)
  have hinner := henters.frames
  rw [frames_count, ← henters.depth] at hinner
  refine ⟨hdepth.trans hcounted, pushed, ?_⟩
  rw [hframes, hdepth]
  cases pushed with
  | none =>
    have hsame : inside.frames = w.frames := hinner
    exact ⟨by rw [hsame]; rfl, by simp⟩
  | some c =>
    have hpushed : inside.frames = ⟨c, inside.depth⟩ :: w.frames := hinner
    have hbelow : ∀ f ∈ w.frames, f.depth < inside.depth := by
      have hdeeper := hleaving.deeper
      rw [hpushed] at hdeeper
      exact fun f hf => rel_of_pairwise_cons hdeeper hf
    have hkept : w.frames.dropWhile (inside.depth < ·.depth) = w.frames := by
      cases hw : w.frames with
      | nil => rfl
      | cons f outer =>
        have := hbelow f (by rw [hw]; exact mem_cons_self)
        exact dropWhile_cons_of_neg (by simp; omega)
    refine ⟨?_, fun _ => hbelow⟩
    rw [hpushed, dropWhile_cons_of_neg (by simp), hkept]
    rfl

lemma Nests.outermost_le (hn : w.Nests) (hf : w.frames.getLast? = some f) :
    ∀ g ∈ w.frames, f.depth ≤ g.depth := by
  obtain ⟨inner, hw⟩ := getLast?_eq_some_iff.1 hf
  have hdeeper := hn.deeper
  rw [hw, pairwise_append] at hdeeper
  rw [hw]
  intro g hg
  rcases mem_append.1 hg with hg | hg
  · exact le_of_lt (hdeeper.2.2 g hg f (by simp))
  · rw [mem_singleton.1 hg]

/-- **The outermost frame stays** as long as the source is not above its body. -/
lemma Nests.outermost_stays (hn : w.Nests) (hcode : s.isComment = false) (h : w.step around s = .ok w')
    (hf : w.frames.getLast? = some f) (hle : f.depth ≤ w'.depth) : w'.frames.getLast? = some f := by
  obtain ⟨-, pushed, hframes, -⟩ := hn.frames_step hcode h
  obtain ⟨inner, hw⟩ := getLast?_eq_some_iff.1 hf
  have hkept : ∃ inner', w.frames.dropWhile (w'.depth < ·.depth) = inner' ++ [f] := by
    rw [hw, dropWhile_append]
    split_ifs
    · exact ⟨[], dropWhile_cons_of_neg (by simpa using hle)⟩
    · exact ⟨_, rfl⟩
  obtain ⟨inner', hkept⟩ := hkept
  rw [hframes, hkept, ← append_assoc]
  exact getLast?_concat ..

/-- **The outermost frame is left** when the source is above its body, and then nothing is open. -/
lemma Nests.outermost_left (hn : w.Nests) (hcode : s.isComment = false) (h : w.step around s = .ok w')
    (hf : w.frames.getLast? = some f) (hlt : w'.depth < f.depth) : w'.frames = [] := by
  obtain ⟨-, pushed, hframes, hdeeper⟩ := hn.frames_step hcode h
  have hall : ∀ g ∈ w.frames, decide (w'.depth < g.depth) = true := by
    intro g hg
    have := hn.outermost_le hf g hg
    exact decide_eq_true (by omega)
  rw [hframes, dropWhile_eq_nil_iff.2 hall]
  cases pushed with
  | none => rfl
  | some c =>
    have := hdeeper rfl f (mem_of_getLast? hf)
    omega

lemma Nests.outermost_before (hn : w.Nests) (h : w.step around s = .ok w')
    (hf : w'.frames.getLast? = some f) : w.frames.getLast? = some f ∨ w.frames = [] := by
  by_cases hcomment : s.isComment = true
  · rw [(step_comment hcomment h).1] at hf
    exact .inl hf
  have hcode : s.isComment = false := by simpa using hcomment
  cases hlast : w.frames.getLast? with
  | none => exact .inr (getLast?_eq_none_iff.1 hlast)
  | some g =>
    by_cases hle : g.depth ≤ w'.depth
    · rw [hn.outermost_stays hcode h hlast hle] at hf
      exact .inl hf
    · rw [hn.outermost_left hcode h hlast (by omega)] at hf
      cases hf

lemma Nests.outermost_opened (hn : w.Nests) (h : w.step around s = .ok w') (hnone : w.frames = [])
    (hf : w'.frames.getLast? = some f) : s.isComment = false ∧ w'.frames = [f] ∧ f.depth = w'.depth := by
  have hcode : s.isComment = false := by
    by_contra hcomment
    rw [(step_comment (by simpa using hcomment) h).1, hnone] at hf
    cases hf
  obtain ⟨-, pushed, hframes, -⟩ := hn.frames_step hcode h
  rw [hnone] at hframes
  cases pushed with
  | none =>
    have hstill : w'.frames = [] := hframes
    rw [hstill] at hf
    cases hf
  | some c =>
    have hsingle : w'.frames = [⟨c, w'.depth⟩] := hframes
    rw [hsingle] at hf
    obtain rfl : ⟨c, w'.depth⟩ = f := Option.some.inj hf
    exact ⟨hcode, hsingle, rfl⟩

/-! ## The statements of the outermost construct -/

/-- The statements up to the one after which nothing is open. -/
def openStatements (around : Surroundings) (w : Walk) : List Statement → List Statement
  | [] => []
  | s :: rest => s :: match w.step around s with
    | .ok w' => if w'.frames = [] then [] else openStatements around w' rest
    | .error _ => []

lemma openStatements_isPrefix (w : Walk) (statements : List Statement) :
    openStatements around w statements <+: statements := by
  induction statements generalizing w with
  | nil => exact prefix_rfl
  | cons s rest ih =>
    rw [openStatements]
    split
    · split_ifs
      · exact prefix_append [s] rest
      · exact cons_prefix_cons.2 ⟨rfl, ih _⟩
    · exact prefix_append [s] rest

lemma concat_isPrefix_openStatements {inside after : List Statement} (hopen : w'.frames ≠ [])
    (hwalk : inside.foldlM (step around) w = .ok w')
    (hinside : inside <+: openStatements around w (inside ++ s :: after)) :
    inside ++ [s] <+: openStatements around w (inside ++ s :: after) := by
  induction inside generalizing w with
  | nil => exact prefix_append [s] _
  | cons i inside ih =>
    obtain ⟨next, hnext, hwalk⟩ := foldlM_cons_eq_ok.1 hwalk
    simp only [cons_append, openStatements, hnext, cons_prefix_cons, true_and] at hinside ⊢
    split_ifs at hinside ⊢ with hnone
    · -- Nothing is open any more, so no statement is left, and the walk ends here.
      obtain rfl : inside = [] := prefix_nil.1 hinside
      cases hwalk
      exact absurd hnone hopen
    · exact ih hwalk hinside

end Walk

lemma walkCalls_append (hwalk : before.foldlM (Walk.step around) w = .ok w') (after : List Statement) :
    walkCalls around w (before ++ after) = walkCalls around w before ++ walkCalls around w' after := by
  induction before generalizing w with
  | nil =>
    cases hwalk
    rfl
  | cons s before ih =>
    obtain ⟨next, hnext, hwalk⟩ := foldlM_cons_eq_ok.1 hwalk
    rw [cons_append, walkCalls, walkCalls, hnext]
    dsimp only
    rw [ih hwalk, append_assoc]

lemma walkCalls_isPrefix (w : Walk) (h : before <+: statements) :
    walkCalls around w before <+: walkCalls around w statements := by
  induction before generalizing w statements with
  | nil => exact nil_prefix
  | cons s before ih =>
    obtain ⟨rest, rfl⟩ := h
    rw [cons_append, walkCalls, walkCalls, prefix_append_right_inj]
    split
    · exact ih _ (prefix_append before rest)
    · exact prefix_rfl

lemma Task.walkCalls_infix_calls (t : Task) (hdocument : t.document.statements = before ++ rest)
    (hwalk : before.foldlM (Walk.step t.surroundings) t.start = .ok w) (hstatements : statements <+: rest) :
    walkCalls t.surroundings w statements <:+: t.calls := by
  have hcalls : walkCalls t.surroundings w statements <:+:
      walkCalls t.surroundings t.start t.document.statements := by
    rw [hdocument, walkCalls_append hwalk]
    exact (walkCalls_isPrefix w hstatements).isInfix.trans (suffix_append ..).isInfix
  exact hcalls.trans (prefix_append ..).isInfix

/-! ## The part of a class -/

/-- A class of a file: a statement that is taken where nothing is open enters its body. -/
structure ClassPart (t : Task) where
  before : List Statement
  opening : Statement
  rest : List Statement
  /-- The walk before the class and after its header. -/
  outside : Walk
  opened : Walk
  info : ClassInfo
  style : Style
  depth : Nat
  document : t.document.statements = before ++ opening :: rest
  walk : before.foldlM (Walk.step t.surroundings) t.start = .ok outside
  noFrames : outside.frames = []
  opens : outside.step t.surroundings opening = .ok opened
  frame : opened.frames = [⟨.classBody info style, depth⟩]

namespace ClassPart

variable {t : Task} (p : ClassPart t)

/-- The statements of the class after its header, with the one that closes it. -/
def body : List Statement := p.opened.openStatements t.surroundings p.rest

lemma foldlM_opened {statements : List Statement} {w : Walk}
    (h : (p.before ++ p.opening :: statements).foldlM (Walk.step t.surroundings) t.start = .ok w) :
    statements.foldlM (Walk.step t.surroundings) p.opened = .ok w := by
  obtain ⟨outside, houtside, h⟩ := foldlM_append_eq_ok.1 h
  obtain rfl : p.outside = outside := Except.ok.inj (p.walk.symm.trans houtside)
  obtain ⟨opened, hopened, h⟩ := foldlM_cons_eq_ok.1 h
  obtain rfl : p.opened = opened := Except.ok.inj (p.opens.symm.trans hopened)
  exact h

/-- What the class becomes: the calls that its statements make. -/
def calls : List Call := walkCalls t.surroundings p.outside (p.opening :: p.body)

/-- After the statements `seen` the class is open, and `s` is one of its statements. -/
def Holds (seen : List Statement) (s : Statement) : Prop :=
  ∃ inside, seen = p.before ++ p.opening :: inside ∧ inside ++ [s] <+: p.body

lemma calls_eq : p.calls = stepCalls t.surroundings p.outside p.opening ++
    walkCalls t.surroundings p.opened p.body := by
  rw [calls, walkCalls, p.opens]

lemma calls_infix : p.calls <:+: t.calls :=
  t.walkCalls_infix_calls p.document p.walk
    (cons_prefix_cons.2 ⟨rfl, p.opened.openStatements_isPrefix p.rest⟩)

lemma nests_outside : p.outside.Nests := t.start_nests.foldlM p.walk

end ClassPart

/-- **The parts cover the classes.**  If a class is the outermost construct, the walk is in its
part. -/
lemma exists_classPart {t : Task} {seen after : List Statement} {info : ClassInfo} {style : Style}
    {depth : Nat} (hdocument : t.document.statements = seen ++ s :: after)
    (hwalk : seen.foldlM (Walk.step t.surroundings) t.start = .ok w)
    (hclass : w.frames.getLast? = some ⟨.classBody info style, depth⟩) :
    ∃ p : ClassPart t, p.info = info ∧ p.style = style ∧ p.Holds seen s := by
  -- By induction on what has been seen: the class was open before the last statement, or that
  -- statement opened it.
  induction seen using List.reverseRecOn generalizing s after w with
  | nil =>
    cases hwalk
    cases hclass
  | append_singleton seen last ih =>
    obtain ⟨previous, hprevious, hlast⟩ := foldlM_append_eq_ok.1 hwalk
    obtain ⟨_, hlast, ⟨⟩⟩ := foldlM_cons_eq_ok.1 hlast
    have hn : previous.Nests := t.start_nests.foldlM hprevious
    rw [append_assoc] at hdocument
    have hopen : w.frames ≠ [] := ne_nil_of_mem (mem_of_getLast? hclass)
    rcases hn.outermost_before hlast hclass with hbefore | hnone
    · obtain ⟨p, hinfo, hstyle, inside, hseen, hinside⟩ := ih hdocument hprevious hbefore
      refine ⟨p, hinfo, hstyle, inside ++ [last], by simp [hseen], ?_⟩
      have hrest : p.rest = (inside ++ [last]) ++ s :: after := by
        have hsame := p.document.symm.trans hdocument
        rw [hseen, append_assoc] at hsame
        have := (cons.inj (append_cancel_left hsame)).2
        rw [this, append_assoc]
        rfl
      have hreached : (inside ++ [last]).foldlM (Walk.step t.surroundings) p.opened = .ok w := by
        rw [hseen] at hprevious
        exact foldlM_append_eq_ok.2 ⟨previous, p.foldlM_opened hprevious, foldlM_cons_eq_ok.2 ⟨w, hlast, rfl⟩⟩
      rw [ClassPart.body, hrest] at hinside ⊢
      exact Walk.concat_isPrefix_openStatements hopen hreached hinside
    · obtain ⟨-, hframe, -⟩ := hn.outermost_opened hlast hnone hclass
      refine ⟨⟨seen, last, s :: after, previous, w, info, style, depth, hdocument, hprevious, hnone,
        hlast, hframe⟩, rfl, rfl, [], rfl, ?_⟩
      exact prefix_append [s] _

end Restage.Conversion
