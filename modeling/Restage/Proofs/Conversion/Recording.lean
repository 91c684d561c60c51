import Restage.Proofs.Conversion.ClassParts
import Restage.Proofs.Project.Analysis

/-!
# What is recorded is written

The statements of a file are gone through twice: the analysis records the fields of each class, and
the walk writes their accessors.  Each keeps its own account of where it is.  The analysis opens a
record for every class, one inside another too, and gives each statement to the innermost; the walk
passes over what is inside a class and no member of it.  If the braces are laid out as usual the two
stay together (`Follows`), and while the walk is in a class, the outermost record that is open is
that of this class (`Records`).  So every element field that is entered into the record has had its
accessor written in the part of the class (`ClassPart.accessor_mem_calls`).
-/

namespace Restage.Conversion

open Text Java TypeScript List Analysis

/-- The header of an accessor. -/
def accessorLine (name : Text) : Text := "async " ++ name ++ "(): Promise<Locator> \x7b"

/-- The call that writes the header of an accessor. -/
def accessorHeader (name : Text) : Call := .openScope (accessorLine name) "\x7d"

/-! ## Where annotations wait -/

lemma append_subset_append {earlier later : List Text} (h : earlier ⊆ later) (found : List Text) :
    earlier ++ found ⊆ later ++ found :=
  append_subset.2 ⟨Subset.trans h (subset_append_left _ _), subset_append_right _ _⟩

variable {before : Nat} {info c : ClassInfo} {style : Style} {l : Lookup} {f : FieldHeader} {final : Walk}
  {header : ClassHeader}

namespace Walk

variable {around : Surroundings} {w w' : Walk} {s : Statement}

lemma pending_count (w : Walk) (s : Statement) : (w.count s).pending = w.pending := by
  simp only [count]
  split_ifs <;> rfl

lemma closers_of_isClosersOnly {t : Text} (h : isClosersOnly t = true) : Closers t := by
  intro c hc
  have := all_eq_true.1 h c hc
  simpa [or_assoc] using this

lemma within_of_closers {frame : Option Frame} (hclosers : isClosersOnly s.text = true)
    (hframe : isCommented frame = false) : w.within around before s frame = .ok w := by
  unfold within
  rw [if_pos ⟨hclosers, by simp [hframe]⟩]

lemma within_none (hopen : isClosersOnly s.text = false) :
    w.within around before s none = .ok (w.topLevel around.lookup s before) := by
  unfold within
  rw [if_neg (by simp [hopen])]

lemma within_classBody (hopen : isClosersOnly s.text = false) :
    w.within around before s (some ⟨.classBody info style, before⟩) =
      w.member around s info style before := by
  unfold within
  rw [if_neg (by simp [hopen])]
  exact if_pos rfl

lemma step_outside (hnone : w.frames = []) (hcode : s.isComment = false)
    (h : w.step around s = .ok w') : ∃ inside,
      (isClosersOnly s.text = true ∧ inside = w.count s ∨
        isClosersOnly s.text = false ∧ inside = (w.count s).topLevel around.lookup s w.depth) ∧
      w' = unwindFrames around.recognizer inside inside.frames := by
  obtain ⟨inside, hinside, rfl⟩ := step_code hcode h
  refine ⟨inside, ?_, rfl⟩
  rw [hnone] at hinside
  cases hclosers : isClosersOnly s.text with
  | true => exact .inl ⟨rfl, Except.ok.inj (hinside.symm.trans (within_of_closers hclosers rfl))⟩
  | false => exact .inr ⟨rfl, Except.ok.inj (hinside.symm.trans (within_none hclosers))⟩

/-- What a statement does directly in the body of a class. -/
lemma step_member (hframe : w.frames.head? = some ⟨.classBody info style, w.depth⟩)
    (hcode : s.isComment = false) (h : w.step around s = .ok w') : ∃ inside,
      (isClosersOnly s.text = true ∧ inside = w.count s ∨
        isClosersOnly s.text = false ∧ (w.count s).member around s info style w.depth = .ok inside) ∧
      w' = unwindFrames around.recognizer inside inside.frames := by
  obtain ⟨inside, hinside, rfl⟩ := step_code hcode h
  refine ⟨inside, ?_, rfl⟩
  rw [hframe] at hinside
  cases hclosers : isClosersOnly s.text with
  | true => exact .inl ⟨rfl, Except.ok.inj (hinside.symm.trans (within_of_closers hclosers rfl))⟩
  | false => exact .inr ⟨rfl, (within_classBody hclosers).symm.trans hinside⟩

lemma pending_heading (hnone : w.frames = []) (hcode : s.isComment = false)
    (h : w.step around s = .ok w')
    (hheading : (package? s.text).isSome = true ∨ (import? s.text).isSome = true) :
    w'.pending = w.pending := by
  obtain ⟨inside, hinside, rfl⟩ := step_outside hnone hcode h
  rw [(unwindFrames_spec ..).2.1]
  rcases hinside with ⟨-, rfl⟩ | ⟨-, rfl⟩
  · exact w.pending_count s
  · rw [topLevel]
    split_ifs
    · exact w.pending_count s
    · exact w.pending_count s
    · simp_all

lemma pending_annotations (hnone : w.frames = []) (hcode : s.isComment = false)
    (h : w.step around s = .ok w') (hheading : package? s.text = none ∧ import? s.text = none)
    (htext : (splitAnnotations s.text).2.isEmpty = true) :
    w'.pending = w.pending ++ (splitAnnotations s.text).1 := by
  obtain ⟨inside, hinside, rfl⟩ := step_outside hnone hcode h
  rw [(unwindFrames_spec ..).2.1, ← w.pending_count s]
  rcases hinside with ⟨hclosers, rfl⟩ | ⟨-, rfl⟩
  · rw [splitAnnotations_of_closers (closers_of_isClosersOnly hclosers), append_nil]
  · rw [topLevel, if_neg (by simp [hheading.1]), if_neg (by simp [hheading.2])]
    dsimp only
    rw [if_pos htext]

lemma pending_member (hframe : w.frames.head? = some ⟨.classBody info style, w.depth⟩)
    (hcode : s.isComment = false) (h : w.step around s = .ok w')
    (htext : (splitAnnotations s.text).2.isEmpty = true) :
    w'.pending = w.pending ++ (splitAnnotations s.text).1 := by
  obtain ⟨inside, hinside, rfl⟩ := step_member hframe hcode h
  rw [(unwindFrames_spec ..).2.1, ← w.pending_count s]
  rcases hinside with ⟨hclosers, rfl⟩ | ⟨-, hmember⟩
  · rw [splitAnnotations_of_closers (closers_of_isClosersOnly hclosers), append_nil]
  · unfold member at hmember
    dsimp only at hmember
    rw [if_pos htext] at hmember
    cases hmember
    rfl

lemma pending_bodyStatement {inBlock : Bool} (h : w.bodyStatement s inBlock = .ok w') :
    w'.pending = w.pending := by
  rcases bodyStatement_cases h with ⟨rest, rfl⟩ | rfl | rfl | ⟨text, -, hconvert⟩
  · rcases closing_cases w s inBlock rest with hclosing | ⟨_, _, -, hclosing⟩ | hclosing
    · rw [hclosing]
    · rw [hclosing]
    · rw [hclosing]
      rfl
  · rcases opening_cases w s with ⟨_, _, -, hopening⟩ | hopening
    all_goals
      rw [hopening]
      rfl
  · rfl
  · obtain ⟨_, -, hconvert⟩ := exists_of_bind_eq_ok hconvert
    cases hconvert
    rfl

lemma pending_elsewhere (hsome : w.frames ≠ [])
    (hmember : ∀ info style, w.frames.head? ≠ some ⟨.classBody info style, w.depth⟩)
    (hcode : s.isComment = false) (h : w.step around s = .ok w') : w'.pending = w.pending := by
  obtain ⟨inside, hinside, rfl⟩ := step_code hcode h
  rw [(unwindFrames_spec ..).2.1, ← w.pending_count s]
  rcases within_cases hinside with rfl | ⟨hnone, -⟩ | ⟨-, rfl⟩ | ⟨_, _, _, -, -, hbody⟩ |
    ⟨info, style, hframe, -⟩
  · rfl
  · exact absurd (head?_eq_none_iff.1 hnone) hsome
  · rfl
  · exact pending_bodyStatement hbody
  · exact absurd hframe (hmember info style)

end Walk

/-! ## The two passes, statement by statement -/

namespace Walk

variable {around : Surroundings} {w w' : Walk} {s : Statement}

lemma stays_openStyle (w : Walk) (l : Lookup) (info : ClassInfo) (style : Style) :
    Stays w ((w.onContext (classContext l info style)).openStyle l info style) := by
  have hcontext : Stays w (w.onContext (classContext l info style)) := ⟨rfl, rfl, rfl⟩
  exact hcontext.openStyle l info style

lemma frames_openClass_of_endsAtOnce (w : Walk) (l : Lookup) (s : Statement) (hends : header.EndsAtOnce) :
    (w.openClass l s header).frames = w.frames := by
  obtain ⟨info, style, -, -, -, hopen⟩ := w.openClass_eq l s header hends.1
  have hstays := w.stays_openStyle l info style
  rw [hopen]
  rw [if_pos hends.2]
  split_ifs
  · exact hstays.frames
  · exact hstays.frames

lemma frames_openClass (w : Walk) (l : Lookup) (s : Statement) (hends : ¬header.EndsAtOnce) :
    ∃ c, (w.openClass l s header).frames = ⟨c, (w.openClass l s header).depth⟩ :: w.frames := by
  by_cases hkind : header.kind = "class".toList
  · obtain ⟨info, style, -, -, -, hopen⟩ := w.openClass_eq l s header hkind
    have hstays := w.stays_openStyle l info style
    refine ⟨.classBody info style, ?_⟩
    rw [hopen]
    rw [if_neg fun hstarts => hends ⟨hkind, hstarts⟩, enter, hstays.frames]
  · rw [openClass, if_pos hkind]
    exact ⟨.skipped, rfl⟩

lemma topLevel_of_classHeader (w : Walk) (l : Lookup) (before : Nat)
    (hheader : s.classHeader? = some header) :
    w.topLevel l s before = { w with pending := [] }.openClass l s header := by
  obtain ⟨hheading, htext⟩ := noHeading_of_classHeader? hheader
  rw [Statement.classHeader?] at hheader
  rw [topLevel, if_neg (by simp [hheading.1]), if_neg (by simp [hheading.2])]
  dsimp only
  rw [if_neg (by simp [htext]), hheader]

lemma not_closers_of_classHeader? (hheader : s.classHeader? = some header) : isClosersOnly s.text = false := by
  by_contra hclosers
  have hsubset := Subset.trans (stripGenerics_sublist _).subset (splitAnnotations_subset s.text)
  have hnever := classHeader?_eq_none_of_closers
    ((closers_of_isClosersOnly (by simpa using hclosers)).mono hsubset)
  cases hheader.symm.trans hnever

lemma frames_of_classHeader (hnone : w.frames = []) (hcode : s.isComment = false)
    (h : w.step around s = .ok w') (hheader : s.classHeader? = some header)
    (hends : ¬header.EndsAtOnce) : w'.frames ≠ [] := by
  obtain ⟨inside, hinside, rfl⟩ := step_outside hnone hcode h
  obtain ⟨-, rfl⟩ := hinside.resolve_left (by simp [not_closers_of_classHeader? hheader])
  rw [(unwindFrames_spec ..).2.2, topLevel_of_classHeader _ _ _ hheader]
  obtain ⟨c, hframes⟩ := frames_openClass { w.count s with pending := [] } around.lookup s hends
  rw [hframes, dropWhile_cons_of_neg (by simp)]
  exact cons_ne_nil _ _

end Walk

/-- The analysis and the walk are at the same place of a file: where nothing is open, no record is,
and no record that is open is that of a class around the outermost construct. -/
structure Follows (a : Analysis) (w : Walk) : Prop where
  orderly : a.Orderly
  depth : a.depth = w.depth
  outside : w.frames = [] → a.stack = [] ∧ a.pending ⊆ w.pending
  inside : ∀ f ∈ w.frames.getLast?, ∀ d ∈ a.depths, (f.depth : Int) ≤ d

namespace Follows

variable {around : Surroundings} {a : Analysis} {w w' : Walk} {s : Statement}

lemma comment (h : Follows a w) (hcomment : s.isComment = true) (hstep : w.step around s = .ok w') :
    Follows (a.step s) w' := by
  obtain ⟨hframes, hdepth, hpending, -⟩ := Walk.step_comment hcomment hstep
  have horderly := h.orderly.comment hcomment
  rw [step_comment hcomment] at horderly ⊢
  refine ⟨horderly, hdepth ▸ h.depth, ?_, ?_⟩
  · rw [hframes, hpending]
    exact h.outside
  · rw [hframes]
    exact h.inside

lemma step_outside (h : Follows a w) {depth : Nat} (ht : s.Tidy depth)
    (hcode : s.isComment = false) (hstep : w.step around s = .ok w') (hnone : w.frames = [])
    (hnone' : w'.frames = []) : (a.step s).stack = [] ∧ (a.step s).pending ⊆ w'.pending := by
  obtain ⟨hstack, hpending⟩ := h.outside hnone
  have hmethod := h.orderly.method_eq_none hstack
  have hstep' : Analysis.Step a s (a.step s) := step_step hcode
  generalize a.step s = a' at hstep'
  cases hstep' with
  | inBody m hm | endsBody m _ hm =>
    rw [hmethod] at hm
    cases hm
  | elsewhere _ hlevel =>
    rw [atMemberLevel, hstack] at hlevel
    cases hlevel
  | heading _ _ _ _ hheading =>
    rw [Walk.pending_heading hnone hcode hstep hheading]
    exact ⟨hstack, hpending⟩
  | annotations _ hlevel htext =>
    rw [Walk.pending_annotations hnone hcode hstep (hlevel.noHeading hstack) htext]
    exact ⟨hstack, append_subset_append hpending _⟩
  | declaresClass header _ _ _ hheader =>
    rw [declareClass]
    split_ifs with hopens
    · -- The record is opened, and so is a frame.
      have hends : ¬header.EndsAtOnce := by
        intro hends
        have := ht.whole header hheader hends.2
        have hrises : a.depth < a.depth + s.balance := hopens
        rw [Statement.balance] at hrises
        omega
      exact absurd hnone' (Walk.frames_of_classHeader hnone hcode hstep hheader hends)
    · exact ⟨hstack, nil_subset _⟩
  | declaresMethod c outer _ _ _ hc | declaresField c outer _ _ hc =>
    rw [hstack] at hc
    cases hc
  | other =>
    refine ⟨?_, nil_subset _⟩
    rw [stack_closeClasses]
    exact congrArg (dropWhile _) hstack

/-- **One tidy statement** keeps the two together. -/
lemma step (h : Follows a w) (hn : w.Nests) (ht : s.Tidy w.depth) (hcode : s.isComment = false)
    (hstep : w.step around s = .ok w') : Follows (a.step s) w' := by
  obtain ⟨hdepth, -⟩ := hn.frames_step hcode hstep
  have hcovered := ht.covered
  have hsingle := ht.single
  have hcounted : (a.step s).depth = a.depth + s.balance := depth_step hcode
  have hsame : (a.step s).depth = w'.depth := by
    rw [hcounted, h.depth, hdepth, Statement.balance]
    omega
  refine ⟨h.orderly.step ht hcode, hsame, ?_, ?_⟩
  · intro hnone'
    cases hlast : w.frames.getLast? with
    | none => exact h.step_outside ht hcode hstep (getLast?_eq_none_iff.1 hlast) hnone'
    | some f =>
      -- The source was in the outermost body and is above it now.
      have hlt : w'.depth < f.depth := by
        by_contra hle
        have hstays := hn.outermost_stays hcode hstep hlast (by omega)
        rw [hnone'] at hstays
        cases hstays
      have hle := hn.le_depth f (mem_of_getLast? hlast)
      have hfalls : s.balance < 0 := by
        rw [Statement.balance]
        omega
      have hopen : ∀ d ∈ a.depths, a.depth ≤ d := by
        intro d hd
        have := h.inside f hlast d hd
        rw [h.depth]
        omega
      obtain ⟨hstack, hpending, -⟩ := stack_step_of_falls h.orderly ht hcode hfalls hopen
      rw [hpending]
      exact ⟨hstack, nil_subset _⟩
  · intro f hf d hd
    rcases depths_step hcode d hd with hold | hnew
    · rcases hn.outermost_before hstep hf with hbefore | hnone
      · exact h.inside f hbefore d hold
      · rw [depths, (h.outside hnone).1] at hold
        cases hold
    · have := (hn.step hstep).le_depth f (mem_of_getLast? hf)
      omega

/-- **A run over tidy statements** keeps the two together. -/
lemma foldl {seen rest : List Statement} (h : Follows a w) (hn : w.Nests)
    (ht : TidyFrom w.depth (seen ++ rest)) (hwalk : seen.foldlM (Walk.step around) w = .ok w') :
    Follows (seen.foldl Analysis.step a) w' ∧ TidyFrom w'.depth rest := by
  induction seen generalizing a w with
  | nil =>
    cases hwalk
    exact ⟨h, ht⟩
  | cons s seen ih =>
    obtain ⟨next, hnext, hwalk⟩ := foldlM_cons_eq_ok.1 hwalk
    rw [cons_append, TidyFrom] at ht
    by_cases hcomment : s.isComment = true
    · rw [if_pos hcomment, ← (Walk.step_comment hcomment hnext).2.1] at ht
      exact ih (h.comment hcomment hnext) (hn.step hnext) ht hwalk
    · have hcode : s.isComment = false := by simpa using hcomment
      rw [if_neg hcomment, ← (hn.frames_step hcode hnext).1] at ht
      exact ih (h.step hn ht.1 hcode hnext) (hn.step hnext) ht.2 hwalk

lemma start (t : Task) : Follows {} t.start := by
  refine ⟨.of_none ?_ .nil rfl, rfl, fun _ => ⟨rfl, nil_subset _⟩, ?_⟩
  · exact forall_mem_nil _
  · rintro _ ⟨⟩

end Follows

/-! ## The record of the class that the walk is in -/

/-- The walk is in a class, and its record is the outermost that is open.  Where no other record is,
the annotations that wait for a member wait in the walk too. -/
structure Records (a : Analysis) (w : Walk) (c : OpenClass) (info : ClassInfo) (style : Style)
    (depth : Nat) : Prop where
  follows : Follows a w
  frame : w.frames.getLast? = some ⟨.classBody info style, depth⟩
  body : c.bodyDepth = depth
  stack : ∃ inner, a.stack = inner ++ [c]
  name : c.name = info.name
  pending : a.stack = [c] → a.pending ⊆ w.pending

/-- With more annotations an element field is one still. -/
lemma Lookup.isElementField_mono {annotations more : List Text} (hmore : annotations ⊆ more)
    (h : l.isElementField (Analysis.fieldInfo f annotations) = true) :
    l.isElementField (Analysis.fieldInfo f more) = true := by
  have hlocator : FieldInfo.hasLocatorAnnotation (fieldInfo f annotations) = true →
      FieldInfo.hasLocatorAnnotation (fieldInfo f more) = true := by
    intro hany
    obtain ⟨text, hmem, hnamed⟩ := any_eq_true.1 hany
    exact any_eq_true.2 ⟨text, hmore hmem, hnamed⟩
  simp only [isElementField, Bool.or_eq_true] at h ⊢
  exact h.imp_left (Or.imp_left hlocator)

namespace Walk.Nests

variable {w : Walk}

lemma classBody_alone (hn : w.Nests) {depth : Nat}
    (hhead : w.frames.head? = some ⟨.classBody info style, depth⟩) :
    w.frames = [⟨.classBody info style, depth⟩] := by
  have hstack := hn.stack
  cases hw : w.frames with
  | nil =>
    rw [hw] at hhead
    cases hhead
  | cons f outer =>
    rw [hw] at hhead hstack
    obtain rfl : f = ⟨.classBody info style, depth⟩ := Option.some.inj hhead
    have houter : kindsOf outer = [] := by
      have hkinds : Stack (.classBody :: kindsOf outer) := hstack
      generalize kindsOf outer = ks at hkinds
      cases hkinds with
      | classBody => rfl
      | body hbody => cases hbody
    rw [map_eq_nil_iff.1 houter]

lemma outermost_alone (hn : w.Nests) {f : Frame} (hf : w.frames.getLast? = some f)
    (hdepth : f.depth = w.depth) : w.frames = [f] := by
  obtain ⟨inner, hw⟩ := getLast?_eq_some_iff.1 hf
  have hdeeper := hn.deeper
  cases inner with
  | nil => exact hw
  | cons g inner =>
    have hle := hn.le_depth g (by rw [hw]; exact mem_cons_self)
    rw [hw] at hdeeper
    have : f.depth < g.depth := rel_of_pairwise_cons hdeeper (by simp)
    omega

end Walk.Nests

namespace Records

variable {around : Surroundings} {a : Analysis} {w w' : Walk} {s : Statement} {c : OpenClass}
  {info : ClassInfo} {style : Style} {depth : Nat}

section

variable (h : Records a w c info style depth)
include h

lemma frames_eq (hn : w.Nests) (hlevel : a.depth = c.bodyDepth) :
    w.frames = [⟨.classBody info style, w.depth⟩] := by
  have hdepth : depth = w.depth := by
    have hsame := h.follows.depth
    have hbody := h.body
    omega
  have halone := hn.outermost_alone h.frame hdepth
  rwa [hdepth] at halone

lemma comment (hcomment : s.isComment = true) (hstep : w.step around s = .ok w') :
    Records (a.step s) w' c info style depth := by
  obtain ⟨hframes, -, hpending, -⟩ := Walk.step_comment hcomment hstep
  have hfollows := h.follows.comment hcomment hstep
  rw [step_comment hcomment] at hfollows ⊢
  refine ⟨hfollows, hframes ▸ h.frame, h.body, h.stack, h.name, ?_⟩
  rw [hpending]
  exact h.pending

/-- **One tidy statement** that does not leave the class keeps its record open, and enters at most
one field into it. -/
lemma step (hn : w.Nests) (ht : s.Tidy w.depth) (hcode : s.isComment = false)
    (hstep : w.step around s = .ok w') (hle : depth ≤ w'.depth) :
    ∃ c', Records (a.step s) w' c' info style depth ∧
      (c'.fields = c.fields ∨ ∃ f, a.DeclaresField s c f ∧
        c'.fields = c.fields ++ [Analysis.fieldInfo f (a.pending ++ (splitAnnotations s.text).1)]) := by
  have hfollows := h.follows.step hn ht hcode hstep
  have hframe := hn.outermost_stays hcode hstep h.frame hle
  obtain ⟨inner, hstack⟩ := h.stack
  have hstays : c.bodyDepth ≤ a.depth + s.balance := by
    rw [← depth_step hcode, hfollows.depth, h.body]
    omega
  obtain ⟨inner', c', hstack', hname, hbody, hfields, hwaits⟩ :=
    bottom_step h.follows.orderly ht hcode hstack hstays
  refine ⟨c', ⟨hfollows, hframe, hbody.trans h.body, ⟨inner', hstack'⟩, hname.trans h.name, ?_⟩, hfields⟩
  intro halone'
  have hnil : inner' = [] := by
    rw [halone'] at hstack'
    simpa using hstack'
  rcases hwaits hnil with hnone | ⟨halone, hdeep, hsame⟩ | ⟨halone, hlevel, htext, hmore⟩
  · rw [hnone]
    exact nil_subset _
  · -- The source is deeper than the body of the class, and the walk does not touch what waits.
    have hmember : ∀ i st, w.frames.head? ≠ some ⟨.classBody i st, w.depth⟩ := by
      intro i st hhead
      have hlast := h.frame
      rw [hn.classBody_alone hhead] at hlast
      cases hlast
      exact hdeep (h.follows.depth.trans h.body.symm)
    have hsome : w.frames ≠ [] := ne_nil_of_mem (mem_of_getLast? h.frame)
    rw [hsame, Walk.pending_elsewhere hsome hmember hcode hstep]
    exact h.pending halone
  · have hhead : w.frames.head? = some ⟨.classBody info style, w.depth⟩ := by
      rw [h.frames_eq hn hlevel]
      rfl
    rw [hmore, Walk.pending_member hhead hcode hstep htext]
    exact append_subset_append (h.pending halone) _

lemma step_leaves (hn : w.Nests) (ht : s.Tidy w.depth) (hcode : s.isComment = false)
    (hstep : w.step around s = .ok w') (hlt : w'.depth < depth) : c ∈ (a.step s).finished := by
  have hdepth := (hn.frames_step hcode hstep).1
  have hle : depth ≤ w.depth := hn.le_depth _ (mem_of_getLast? h.frame)
  have hsingle := ht.single
  have hfalls : s.balance < 0 := by
    rw [Statement.balance]
    omega
  have hopen : ∀ d ∈ a.depths, a.depth ≤ d := by
    intro d hd
    have hinside : (depth : Int) ≤ d := h.follows.inside _ h.frame d hd
    rw [h.follows.depth]
    omega
  obtain ⟨-, -, hfinished⟩ := stack_step_of_falls h.follows.orderly ht hcode hfalls hopen
  obtain ⟨inner, hstack⟩ := h.stack
  rw [hfinished, hstack]
  simp

end

lemma accessorHeader_mem (h : Records a w c info .page depth) (hn : w.Nests) (hcode : s.isComment = false)
    (hfield : a.DeclaresField s c f)
    (helement : around.lookup.isElementField (Analysis.fieldInfo f (a.pending ++ (splitAnnotations s.text).1)) = true)
    :
    accessorHeader f.name ∈ stepCalls around w s := by
  have hframes := h.frames_eq hn hfield.level
  have hopen : Walk.isClosersOnly s.text = false := by
    by_contra hclosers
    have hsubset := splitAnnotations_subset s.text
    have hnever := field?_eq_none_of_closers
      ((Walk.closers_of_isClosersOnly (by simpa using hclosers)).mono hsubset)
    rw [hfield.field] at hnever
    cases hnever
  have hwritten : around.lookup.isElementField
      (fieldInfo f ((w.count s).pending ++ (splitAnnotations s.text).1)) = true := by
    rw [w.pending_count s]
    exact Lookup.isElementField_mono (append_subset_append (h.pending hfield.alone) _) helement
  have hcalls : accessorHeader f.name ∈
      memberCalls around (w.count s) s info .page w.depth := by
    rw [memberCalls]
    dsimp only
    rw [if_neg (by simp [hfield.text]), declarationCalls, if_neg (by simp [hfield.noClass]),
      ← h.name, hfield.noMethod]
    rw [hfield.field]
    dsimp only
    rw [fieldCalls]
    rw [if_pos hwritten]
    exact mem_append_right _ mem_cons_self
  have hwithin : withinCalls around (w.count s) w.depth s w.frames.head? =
      memberCalls around (w.count s) s info .page w.depth := by
    rw [hframes]
    unfold withinCalls
    rw [if_neg (by simp [hopen])]
    exact if_pos rfl
  rw [stepCalls, if_neg (by simp [hcode]), hwithin]
  exact mem_append_left _ (mem_append_right _ hcalls)

/-- **A run.**  Of the fields that are in the record of the class in the end, those that were not
there yet and are element fields have their accessors in what the class becomes from here on. -/
lemma foldl {statements : List Statement} (h : Records a w c info .page depth) (hn : w.Nests)
    (ht : TidyFrom w.depth statements) (hwalk : statements.foldlM (Walk.step around) w = .ok final) :
    ∃ c' ∈ (statements.foldl Analysis.step a).finished ++ (statements.foldl Analysis.step a).stack,
      c'.name = info.name ∧ ∀ f ∈ c'.fields, around.lookup.isElementField f = true →
        f ∈ c.fields ∨
        accessorHeader f.name ∈ walkCalls around w (w.openStatements around statements) := by
  induction statements generalizing a w c with
  | nil =>
    obtain ⟨inner, hstack⟩ := h.stack
    refine ⟨c, ?_, h.name, fun f hf _ => .inl hf⟩
    simp [hstack]
  | cons s rest ih =>
    obtain ⟨next, hnext, hwalk⟩ := foldlM_cons_eq_ok.1 hwalk
    rw [TidyFrom] at ht
    have hcalls : walkCalls around w (w.openStatements around (s :: rest)) = stepCalls around w s ++
        walkCalls around next (if next.frames = [] then [] else next.openStatements around rest) := by
      rw [Walk.openStatements, walkCalls, hnext]
    rw [hcalls]
    -- As long as the class is open, so is its record, and the statements that follow are its own.
    have hopen : ∀ c₁, Records (a.step s) next c₁ info .page depth →
        TidyFrom next.depth rest → ∃ c' ∈ (rest.foldl Analysis.step (a.step s)).finished ++
          (rest.foldl Analysis.step (a.step s)).stack, c'.name = info.name ∧
          ∀ f ∈ c'.fields, around.lookup.isElementField f = true → f ∈ c₁.fields ∨
            accessorHeader f.name ∈ walkCalls around next
              (if next.frames = [] then [] else next.openStatements around rest) := by
      intro c₁ h₁ ht
      have hsome : next.frames ≠ [] := ne_nil_of_mem (mem_of_getLast? h₁.frame)
      rw [if_neg hsome]
      exact ih h₁ (hn.step hnext) ht hwalk
    by_cases hcomment : s.isComment = true
    · rw [if_pos hcomment, ← (Walk.step_comment hcomment hnext).2.1] at ht
      obtain ⟨c', hmem, hname, hfields⟩ := hopen c (h.comment hcomment hnext) ht
      refine ⟨c', hmem, hname, fun f hf helement => ?_⟩
      exact (hfields f hf helement).imp_right (mem_append_right _)
    have hcode : s.isComment = false := by simpa using hcomment
    rw [if_neg hcomment, ← (hn.frames_step hcode hnext).1] at ht
    by_cases hle : depth ≤ next.depth
    · obtain ⟨c₁, h₁, hentered⟩ := h.step hn ht.1 hcode hnext hle
      obtain ⟨c', hmem, hname, hfields⟩ := hopen c₁ h₁ ht.2
      refine ⟨c', hmem, hname, fun f hf helement => ?_⟩
      rcases hfields f hf helement with hf | hf
      · rcases hentered with hsame | ⟨header, hdeclares, hnew⟩
        · exact .inl (hsame ▸ hf)
        · rw [hnew] at hf
          rcases mem_append.1 hf with hf | hf
          · exact .inl hf
          · obtain rfl := mem_singleton.1 hf
            exact .inr (mem_append_left _ (h.accessorHeader_mem hn hcode hdeclares helement))
      · exact .inr (mem_append_right _ hf)
    · have hfinished := h.step_leaves hn ht.1 hcode hnext (by omega)
      refine ⟨c, mem_append_left _ ?_, h.name, fun f hf _ => .inl hf⟩
      exact (finished_prefix_foldl (a.step s) rest).subset hfinished

end Records

/-! ## The part of a class -/

/-- A statement declares a class that is opened where nothing is. -/
structure OpensClass (around : Surroundings) (w : Walk) (s : Statement) (w' : Walk)
    (header : ClassHeader) (info : ClassInfo) (style : Style) : Prop where
  noHeading : package? s.text = none ∧ import? s.text = none
  text : (splitAnnotations s.text).2.isEmpty = false
  classHeader : classHeader? (stripGenerics (splitAnnotations s.text).2) = some header
  info_eq : info = (around.lookup.own? header.name).getD { name := header.name }
  style_eq : style = Style.ofRoles (around.lookup.roles info)
  setting : w'.context.setting = (classContext around.lookup info style w.context).setting
  calls : stepCalls around w s = countCalls w s ++ styleCalls around.lookup info w.bound style

lemma Lookup.name_of_own? {name : Text} (h : l.own? name = some c) : c.name = name := by
  simpa using find?_some h

lemma Lookup.name_getD_own? (l : Lookup) (name : Text) :
    ((l.own? name).getD { name := name }).name = name := by
  cases hfound : l.own? name with
  | none => rfl
  | some c => exact name_of_own? hfound

lemma OpensClass.name_eq {around : Surroundings} {w w' : Walk} {s : Statement}
    (h : OpensClass around w s w' header info style) : header.name = info.name := by
  rw [h.info_eq, Lookup.name_getD_own?]

namespace Walk

variable {around : Surroundings} {w w' : Walk} {s : Statement}

/-- The frame of a class is entered by nothing but the header of a class. -/
lemma classHeader_of_mem_frames (hnone : w.frames = []) {depth : Nat}
    (hmem : ⟨.classBody info style, depth⟩ ∈ (w.topLevel l s before).frames) :
    ∃ header, s.classHeader? = some header ∧
      ⟨.classBody info style, depth⟩ ∈ ({ w with pending := [] }.openClass l s header).frames := by
  have hempty : ∀ w₁ : Walk, w₁.frames = w.frames → ⟨.classBody info style, depth⟩ ∉ w₁.frames := by
    intro w₁ hsame
    rw [hsame, hnone]
    exact not_mem_nil
  rcases w.topLevel_cases l s before with ⟨-, _, -, hw⟩ |
    ⟨-, ⟨-, hw⟩ | ⟨-, ⟨header, hheader, hw⟩ | ⟨-, hw⟩⟩⟩
  · rw [hw] at hmem
    exact absurd hmem (hempty (w.diagnose s _) rfl)
  · rw [hw] at hmem
    exact absurd hmem (hempty _ rfl)
  · rw [hw] at hmem
    exact ⟨header, hheader, hmem⟩
  · rw [hw, skip] at hmem
    split_ifs at hmem
    · rcases mem_cons.1 hmem with heq | hmem
      · cases heq
      · exact absurd hmem (hempty w rfl)
    · exact absurd hmem (hempty w rfl)

lemma openClass_of_mem_frames (hnone : w.frames = []) {depth : Nat}
    (hmem : ⟨.classBody info style, depth⟩ ∈ (w.openClass l s header).frames) :
    header.kind = "class".toList ∧ startsWith "\x7d" (trim header.rest) = false ∧
      info = (l.own? header.name).getD { name := header.name } ∧
      style = Style.ofRoles (l.roles info) ∧
      w.openClass l s header =
        ((w.onContext (classContext l info style)).openStyle l info style).enter
          (.classBody info style) := by
  by_cases hkind : header.kind = "class".toList
  · obtain ⟨info₀, style₀, hinfo, hstyle, -, hopen⟩ := w.openClass_eq l s header hkind
    have hstays := w.stays_openStyle l info₀ style₀
    rw [hopen] at hmem ⊢
    by_cases hstarts : startsWith "\x7d" (trim header.rest) = true
    · rw [if_pos hstarts] at hmem
      have hsame : ⟨.classBody info style, depth⟩ ∈
          ((w.onContext (classContext l info₀ style₀)).openStyle l info₀ style₀).frames := by
        split_ifs at hmem <;> exact hmem
      rw [hstays.frames, hnone] at hsame
      cases hsame
    · rw [if_neg hstarts, enter, hstays.frames, hnone] at hmem
      cases mem_singleton.1 hmem
      rw [if_neg hstarts]
      exact ⟨hkind, by simpa using hstarts, hinfo, hstyle, rfl⟩
  · rw [openClass, if_pos hkind] at hmem
    rcases mem_cons.1 hmem with heq | hmem
    · cases heq
    · have hsame : ⟨.classBody info style, depth⟩ ∈ w.frames := hmem
      rw [hnone] at hsame
      cases hsame

lemma exists_opensClass (hnone : w.frames = []) (hcode : s.isComment = false) (h : w.step around s = .ok w')
    {depth : Nat} (hframe : w'.frames = [⟨.classBody info style, depth⟩]) :
    ∃ header, OpensClass around w s w' header info style := by
  obtain ⟨inside, hinside, rfl⟩ := step_outside hnone hcode h
  have hnone' : (w.count s).frames = [] := (w.frames_count s).trans hnone
  have hmem : ⟨.classBody info style, depth⟩ ∈ inside.frames := by
    rw [(unwindFrames_spec ..).2.2] at hframe
    refine (dropWhile_sublist (inside.depth < ·.depth)).subset ?_
    rw [hframe]
    exact mem_cons_self
  rcases hinside with ⟨-, rfl⟩ | ⟨hopen, rfl⟩
  · rw [hnone'] at hmem
    cases hmem
  obtain ⟨header, hheader, hmem⟩ := classHeader_of_mem_frames hnone' hmem
  obtain ⟨hheading, htext⟩ := noHeading_of_classHeader? hheader
  obtain ⟨counted, hcounted⟩ : ∃ counted, counted = { w.count s with pending := [] } := ⟨_, rfl⟩
  have hsame : counted.frames = [] ∧ counted.context = w.context := by
    rw [hcounted]
    exact ⟨hnone', w.context_count s⟩
  rw [← hcounted] at hmem
  obtain ⟨hkind, hstarts, hinfo, hstyle, hopened⟩ := openClass_of_mem_frames hsame.1 hmem
  have hinside : (w.count s).topLevel around.lookup s w.depth =
      ((counted.onContext (classContext around.lookup info style)).openStyle around.lookup info
        style).enter (.classBody info style) := by
    rw [topLevel_of_classHeader _ _ _ hheader, ← hcounted, hopened]
  have hstays := counted.stays_openStyle around.lookup info style
  have hframes : ((w.count s).topLevel around.lookup s w.depth).frames =
      [⟨.classBody info style, ((w.count s).topLevel around.lookup s w.depth).depth⟩] := by
    rw [hinside, enter, hstays.frames, hsame.1]
  refine ⟨header, hheading, htext, hheader, hinfo, hstyle, ?_, ?_⟩
  · rw [hframes, unwindFrames, if_neg (lt_irrefl _), hinside]
    obtain ⟨_, hw⟩ := context_openStyle (counted.onContext (classContext around.lookup info style)) around.lookup info style
    refine (congrArg Context.setting hw :).trans ?_
    rw [onContext, hsame.2]
    rfl
  · have hbound : (w.count s).bound = w.bound := by
      simp only [count]
      split_ifs <;> rfl
    have hwithin : (w.count s).within around w.depth s w.frames.head? =
        .ok ((w.count s).topLevel around.lookup s w.depth) := by
      rw [hnone]
      exact within_none hopen
    have hcalls : withinCalls around (w.count s) w.depth s w.frames.head? =
        styleCalls around.lookup info w.bound style := by
      rw [hnone]
      unfold withinCalls
      rw [if_neg (by simp [hopen])]
      dsimp only [head?_nil]
      rw [Statement.classHeader?] at hheader
      rw [topLevelCalls, if_neg (by simp [hheading, htext]), hheader]
      dsimp only
      rw [openClassCalls, if_neg (by simp [hkind]), ← hinfo]
      dsimp only
      rw [← hstyle, hstarts, if_neg (by simp), append_nil, hbound]
    rw [stepCalls, if_neg (by simp [hcode]), hwithin, hcalls]
    dsimp only
    rw [hframes, unwindCalls, if_neg (lt_irrefl _), append_nil]

end Walk

namespace ClassPart

variable {t : Task} (p : ClassPart t)

lemma opened_spec : p.opening.isComment = false ∧ p.depth = p.opened.depth := by
  have hlast : p.opened.frames.getLast? = some ⟨.classBody p.info p.style, p.depth⟩ := by
    rw [p.frame]
    rfl
  obtain ⟨hcode, -, hdepth⟩ := p.nests_outside.outermost_opened p.opens p.noFrames hlast
  exact ⟨hcode, hdepth⟩

lemma exists_opensClass :
    ∃ header, OpensClass t.surroundings p.outside p.opening p.opened header p.info p.style :=
  Walk.exists_opensClass p.noFrames p.opened_spec.1 p.opens p.frame

lemma follows (htidy : TidyFrom 0 t.document.statements) :
    Follows (p.before.foldl Analysis.step {}) p.outside ∧ p.opening.Tidy p.outside.depth ∧
      TidyFrom p.opened.depth p.rest := by
  obtain ⟨hcode, -⟩ := p.opened_spec
  have ht : TidyFrom t.start.depth (p.before ++ p.opening :: p.rest) := by
    rw [← p.document]
    exact htidy
  obtain ⟨hfollows, ht⟩ := (Follows.start t).foldl t.start_nests ht p.walk
  rw [TidyFrom, if_neg (by simp [hcode]), ← (p.nests_outside.frames_step hcode p.opens).1] at ht
  exact ⟨hfollows, ht⟩

/-- The analysis leaves a record for the class, and each element field in it has its accessor in
what the class becomes. -/
lemma exists_record (hwalk : t.walk = .ok final) (htidy : TidyFrom 0 t.document.statements)
    (hpage : p.style = .page) :
    ∃ c ∈ (t.document.statements.foldl Analysis.step {}).finished ++
        (t.document.statements.foldl Analysis.step {}).stack,
      c.name = p.info.name ∧ ∀ f ∈ c.fields, t.surroundings.lookup.isElementField f = true →
        accessorHeader f.name ∈ p.calls := by
  obtain ⟨hcode, hbody⟩ := p.opened_spec
  obtain ⟨header, hopens⟩ := p.exists_opensClass
  have hn := p.nests_outside
  obtain ⟨hfollows, ht⟩ := p.follows htidy
  rw [Task.walk, p.document] at hwalk
  have hrest := p.foldlM_opened hwalk
  rw [p.document, foldl_append]
  generalize p.before.foldl step {} = a at hfollows
  have hnext := hfollows.step hn ht.1 hcode p.opens
  obtain ⟨hstack, -⟩ := hfollows.outside p.noFrames
  have hmethod := hfollows.orderly.method_eq_none hstack
  have hstep := step_of_classHeader hmethod hstack hcode hopens.classHeader
  rw [declareClass] at hstep
  split_ifs at hstep with hrises
  · -- The record is open as long as the class is.
    have hrecords : Records (a.step p.opening) p.opened
        (openClass header p.opening.line (a.depth + p.opening.balance)) p.info .page
        p.depth := by
      refine ⟨hnext, by rw [p.frame, hpage]; rfl, ?_, ⟨[], ?_⟩, hopens.name_eq, fun _ => ?_⟩
      · have hsame : a.depth + p.opening.balance = p.opened.depth :=
          (depth_step hcode).symm.trans hnext.depth
        rw [hbody]
        exact hsame
      · rw [hstep]
        exact congrArg (_ :: ·) hstack
      · rw [hstep]
        exact nil_subset _
    obtain ⟨c, hmem, hc, hfields⟩ := hrecords.foldl (hn.step p.opens) ht.2 hrest
    refine ⟨c, hmem, hc, fun f hf helement => ?_⟩
    rw [p.calls_eq]
    refine mem_append_right _ ((hfields f hf helement).resolve_left ?_)
    exact not_mem_nil
  · -- The record is finished at once, and it has no fields.
    refine ⟨openClass header p.opening.line (a.depth + p.opening.balance),
      mem_append_left _ ?_, hopens.name_eq, fun f hf => absurd hf not_mem_nil⟩
    refine (finished_prefix_foldl (a.step p.opening) p.rest).subset ?_
    rw [hstep]
    exact mem_append_right _ mem_cons_self

end ClassPart

lemma Lookup.own?_of_mem (hnames : (l.classes.map (·.name)).Nodup) (hc : c ∈ l.classes) :
    l.own? c.name = some c := by
  cases hfound : l.own? c.name with
  | none => exact absurd (find?_eq_none.1 hfound c hc) (by simp)
  | some d =>
    rw [inj_on_of_nodup_map hnames (mem_of_find?_eq_some hfound) hc (name_of_own? hfound)]

/-- **What is recorded is written.**  If the braces are laid out as usual and no name is given
twice, each element field that the lookup knows of a class has its accessor in what the class
becomes. -/
lemma ClassPart.accessorHeader_mem {t : Task} (p : ClassPart t) (hwalk : t.walk = .ok final)
    (htidy : TidyFrom 0 t.document.statements) (hnames : (t.classes.map (·.name)).Nodup)
    (hpage : p.style = .page) :
    ∀ x ∈ t.surroundings.lookup.elementFields p.info, accessorHeader x ∈ p.calls := by
  obtain ⟨c, hmem, hname, hfields⟩ := p.exists_record hwalk htidy hpage
  obtain ⟨header, hopens⟩ := p.exists_opensClass
  have hrecord : (t.document.statements.foldl step {}).record t.module c ∈ t.classes := by
    refine mem_map.2 ⟨c, ?_, rfl⟩
    exact mem_mergeSort.2 hmem
  have hinfo : p.info = (t.document.statements.foldl step {}).record t.module c := by
    have hfound := t.surroundings.lookup.own?_of_mem hnames hrecord
    have hsame : ((t.document.statements.foldl step {}).record t.module c).name =
        header.name := hname.trans hopens.name_eq.symm
    rw [hsame] at hfound
    rw [hopens.info_eq, hfound]
    rfl
  intro x hx
  obtain ⟨f, hf, rfl⟩ := mem_map.1 hx
  obtain ⟨hf, helement⟩ := mem_filter.1 hf
  rw [hinfo] at hf
  exact hfields f hf helement

lemma Task.surroundings_of_sorted (t : Task)
    (hsorted : ((t.document.statements.foldl Analysis.step {}).finished ++
      (t.document.statements.foldl Analysis.step {}).stack).Pairwise
        fun c d => decide (c.line ≤ d.line) = true) :
    let a := t.document.statements.foldl Analysis.step {}
    t.surroundings =
      { lookup := { project := t.project, classes := (a.finished ++ a.stack).map (a.record t.module) }
        recognizer := t.recognizer } := by
  rw [surroundings, classes, Document.classes, records, mergeSort_of_pairwise hsorted]

end Restage.Conversion
