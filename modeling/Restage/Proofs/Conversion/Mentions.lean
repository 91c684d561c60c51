import Restage.Proofs.Conversion.Accessors

/-!
# Classes that the code mentions

A walk writes names of classes in several places: after `extends`, in constructors, before static
calls and as types.  `Task.mentions` lists them in the order in which they are written, with one
definition for each function of the walk that writes some.  Text that is copied from the source,
such as the arguments of a call, is not looked into.

Each of these functions sees to the imports by itself.  `Writes` follows a walk and says what has
become of some mentions: the text of each of them stands in a line of the sheet, and the imports
that were added are those that the mentions ask for (`Mention.import?`).  The one mention that is
not written comes from a call on a new page object that turns out to be no call; its class has been
imported by then.
-/

namespace Restage.Conversion

open Text Java TypeScript List Option Verdict

/-! ## Mentions -/

/-- What a name is written for. -/
inductive Usage where
  /-- As the class that another one extends. -/
  | base
  /-- As the class of a new object. -/
  | constructed
  /-- As the class of a new exception. -/
  | thrown
  /-- As what a method is called on. -/
  | receiver (method : Text)
  /-- As the type of a parameter. -/
  | parameter (name : Text)
  /-- As the type of what a method returns. -/
  | result
  /-- As the type of a property. -/
  | property (name : Text)
  /-- As the function that gives the step keywords. -/
  | keywords
  /-- For nothing: the statement is kept as it was. -/
  | unwritten
  deriving DecidableEq, Repr

/-- A name in the code. -/
structure Mention where
  usage : Usage
  /-- A class, or a type with its array brackets. -/
  name : Text
  /-- The class that the name is written in, as far as the code has it. -/
  within : Option Text
  deriving DecidableEq, Repr

namespace Mention

/-- The text of a mention: the name and what is written around it. -/
def text (m : Mention) : Text :=
  match m.usage with
  | .base => " extends " ++ m.name ++ " \x7b"
  | .constructed => "new " ++ m.name ++ "("
  | .thrown => "throw new " ++ m.name ++ "("
  | .receiver method => "await " ++ m.name ++ "." ++ method ++ "("
  | .parameter name => name ++ ": " ++ m.name
  | .result => "Promise<" ++ m.name ++ ">"
  | .property name => name ++ ": " ++ m.name ++ " = "
  | .keywords => "= " ++ m.name ++ "();"
  | .unwritten => []

/-- The import that a mention asks for.  One pair of brackets is taken off a type; the type of a
property asks for nothing. -/
def import? (l : Lookup) (module : Option Text) (m : Mention) : Option Text :=
  let site : Context := { project := l.project, module, className := m.within }
  match m.usage with
  | .base | .constructed | .thrown | .unwritten => site.importOf? m.name
  | .receiver _ =>
    if (l.project.bind (·.get? m.name)).any (·.name = m.name) then site.importOf? m.name else none
  | .parameter _ | .result =>
    if (l.class? (dropBrackets m.name)).isSome then site.importOf? (dropBrackets m.name) else none
  | .property _ => none
  | .keywords => some stepsImport

end Mention

/-! ## Statements -/

section Statements

variable (t : Text) (ctx : Context)

/-- The mention in the construction of a page object. -/
def newPageMentions : List Mention :=
  match newObject? t with
  | some found =>
    if ctx.isPageClass found.className then [⟨.constructed, found.className, ctx.className⟩] else []
  | none => []

/-- The mention in a call on a new page object. -/
def chainedMentions : List Mention :=
  match chainedCall? t with
  | some (className, call) =>
    if ctx.isPageClass className then
      [⟨if (splitCall? (call ++ ";")).isSome then .constructed else .unwritten, className, ctx.className⟩]
    else []
  | none => []

/-- The mention of an exception of the project. -/
def thrownMentions : List Mention :=
  match ((literal? "throw" t).bind someBlanks?).bind constructed? with
  | some (name, r) =>
    if (callArguments? r).isSome ∧ ctx.project.any fun p => (p.roles name).isException then
      [⟨.thrown, name, ctx.className⟩]
    else []
  | none => []

/-- The mention in the return of a page object. -/
def returnedMentions : List Mention :=
  match returned? t with
  | some value =>
    if value.isEmpty ∨ (value = "this".toList ∧ ctx.selfRef.isSome) ∨ isLiteral value ∨
        ctx.scope.contains value then []
    else match newExpression? value with
      | some name => if ctx.isPageClass name then [⟨.constructed, name, ctx.className⟩] else []
      | none => []
  | none => []

/-- The mention in a call of a static method of the class itself. -/
def ownCallMentions (name : Text) : List Mention :=
  if ctx.functions.contains name then []
  else match ctx.className.filter fun c => ctx.staticMethods.contains name && !c.isEmpty with
    | some className => [⟨.receiver name, className, ctx.className⟩]
    | none => []

/-- The mention in a call of a known method. -/
def calledMentions : List Mention :=
  match (callStatement? t).bind splitCall? with
  | some (callee, raw) =>
    let (receiver, name) := receiverAndName callee
    if !hasNoBlocks (mask raw) ∨ !isDottedName callee ∨ keywords.contains name
        ∨ keywords.contains receiver ∨ name = "super".toList then []
    else if receiver = [] ∨ receiver = "this".toList then ownCallMentions ctx name
    else if isDriverReceiver receiver then []
    else [⟨.receiver name, receiver, ctx.className⟩]
  | none => []

end Statements

/-- The rules that mention classes. -/
def mentioningRules : Table (Text → Context → List Mention) :=
  [("new_page_object", newPageMentions), ("chained_page_call", chainedMentions),
   ("throw", thrownMentions), ("return", returnedMentions), ("generic_call", calledMentions)]

def ruleMentions (rule : Text) (t : Text) (ctx : Context) : List Mention :=
  ((mentioningRules.get? rule).map (· t ctx)).getD []

def triedMentions (t : Text) (ctx : Context) : List Rule → List Mention
  | [] => []
  | rule :: rest =>
    ruleMentions rule.name t ctx ++
      match rule.apply t ctx with
      | .ok verdict => if verdict.lines.isSome then [] else triedMentions t verdict.context rest
      | .error _ => []

def statementMentions (text : Text) (ctx : Context) : List Mention :=
  if isSingle (trim text) then triedMentions (trim text) ctx rules else []

/-! ## Declarations -/

/-- The mentions of the header of a class. -/
def styleMentions (l : Lookup) (info : ClassInfo) (bound : Bool) : Style → List Mention
  | .steps => if bound then [] else [⟨.keywords, "createBdd", none⟩]
  | _ => (l.extended? info).toList.map fun p => ⟨.base, p.name, some info.name⟩

/-- The mentions of a class declaration. -/
def classMentions (l : Lookup) (h : ClassHeader) (bound : Bool) : List Mention :=
  if h.kind ≠ "class".toList then []
  else
    let info := (l.own? h.name).getD { name := h.name }
    styleMentions l info bound (Style.ofRoles (l.roles info))

/-- The mentions of a statement outside of all classes. -/
def topLevelMentions (l : Lookup) (s : Statement) (bound : Bool) : List Mention :=
  let text := (splitAnnotations s.text).2
  if (package? s.text).isSome ∨ (import? s.text).isSome ∨ text.isEmpty then []
  else match classHeader? (stripGenerics text) with
    | some h => classMentions l h bound
    | none => []

/-- The mention of a field with a literal value. -/
def fieldMentions (l : Lookup) (style : Style) (f : FieldHeader) (annotations : List Text)
    (within : Option Text) : List Mention :=
  let info := Analysis.fieldInfo f annotations
  if l.isElementField info ∨ style = .steps ∨ !isLiteral (trim (info.initial.getD [])) then []
  else [⟨.property info.name, typeName info.type, within⟩]

/-- The mentions of the header of a method. -/
def headerMentions (style : Style) (sig : Signature) (step : Option Step) (within : Option Text) :
    List Mention :=
  ((parameters sig.params).map fun p => ⟨.parameter p.name, typeName p.type, within⟩) ++
    if style = .steps ∧ step.isSome then []
    else [⟨.result, typeName (sig.result.getD []), within⟩]

/-- The mentions of a method up to the page objects of its body. -/
def startMentions (l : Lookup) (info : ClassInfo) (style : Style) (sig : Signature)
    (annotations : List Text) (within : Option Text) : List Mention :=
  headerMentions style sig (stepAnnotation? annotations) within ++
    if style = .steps then
      (namedPages l info sig.name).map fun f => ⟨.constructed, f.elementType, within⟩
    else []

/-- The mentions of a method or constructor. -/
def methodMentions (l : Lookup) (w : Walk) (info : ClassInfo) (style : Style) (sig : Signature)
    (annotations : List Text) (opened : Bool) : List Mention :=
  let body := Walk.inlineBody (trim sig.ending)
  if sig.isConstructor ∨ trim sig.ending = ";".toList then []
  else
    startMentions l info style sig annotations w.context.className ++
      if opened ∨ body.isEmpty then []
      else statementMentions body
        ((w.onSheet (·.blank)).startMethod l info style sig annotations).context

/-- The mentions of a declaration in the body of a class. -/
def declarationMentions (l : Lookup) (w : Walk) (info : ClassInfo) (style : Style) (text : Text)
    (annotations : List Text) (opened : Bool) : List Mention :=
  if style = .exception ∨ (classHeader? (stripGenerics text)).isSome then []
  else match signature? (some info.name) text with
    | some sig => methodMentions l w info style sig annotations opened
    | none =>
      match field? text with
      | some f => fieldMentions l style f annotations w.context.className
      | none => []

/-- The mentions of a statement in the body of a class. -/
def memberMentions (l : Lookup) (w : Walk) (s : Statement) (info : ClassInfo) (style : Style)
    (bodyDepth : Nat) : List Mention :=
  let (found, text) := splitAnnotations s.text
  if text.isEmpty then []
  else declarationMentions l { w with pending := [] } info style text (w.pending ++ found)
    (bodyDepth < w.depth)

/-! ## Steps -/

/-- The mentions of a statement in the body of a method. -/
def bodyMentions (s : Statement) (ctx : Context) : List Mention :=
  match s.text with
  | '\x7d' :: _ => []
  | text =>
    if s.closes < s.opens then []
    else match if s.opens < s.closes then dropFinal? '\x7d' text else none with
      | some inner => if allBlank inner then [] else statementMentions (trim inner) ctx
      | none => statementMentions text ctx

lemma bodyMentions_eq (s : Statement) (ctx : Context) :
    bodyMentions s ctx = (Walk.bodyPart? s).elim [] (statementMentions · ctx) := by
  rw [bodyMentions, Walk.bodyPart?]
  split
  next r hr => rw [hr, if_pos (.inl rfl), elim_none]
  next hother =>
    have hhead : s.text.head? ≠ some '\x7d' := by
      intro hhead
      obtain ⟨r, hr⟩ := head?_eq_some_iff.1 hhead
      exact hother r hr
    simp only [hhead, false_or]
    split_ifs
    · rfl
    · cases dropFinal? '\x7d' s.text with
      | none => rfl
      | some inner =>
        dsimp only
        split_ifs <;> rfl
    · rfl

/-- The mentions of a statement, given the construct that it stands in. -/
def withinMentions (l : Lookup) (w : Walk) (before : Nat) (s : Statement) (frame : Option Frame) :
    List Mention :=
  if Walk.isClosersOnly s.text ∧ !Walk.isCommented frame then []
  else match frame with
    | none => topLevelMentions l s w.bound
    | some ⟨.method _ _, _⟩ | some ⟨.block, _⟩ => bodyMentions s w.context
    | some ⟨.classBody info style, depth⟩ =>
      if before = depth then memberMentions l w s info style depth else []
    | some ⟨.skipped, _⟩ | some ⟨.commented, _⟩ => []

def stepMentions (l : Lookup) (w : Walk) (s : Statement) : List Mention :=
  if s.isComment then [] else withinMentions l (w.count s) w.depth s w.frames.head?

/-- The mentions of a walk over some statements. -/
def walkMentions (around : Surroundings) (w : Walk) : List Statement → List Mention
  | [] => []
  | s :: rest =>
    stepMentions around.lookup w s ++
      match w.step around s with
      | .ok w' => walkMentions around w' rest
      | .error _ => []

/-- The mentions of a file. -/
def Task.mentions (t : Task) : List Mention :=
  walkMentions t.surroundings t.start t.document.statements

/-! ## Imports of a context -/

variable {m : Mention} {style : Style} {sig : Signature} {info : ClassInfo} {annotations : List Text}
  {opened : Bool} {after : Context} {text : Text} {calls : List Call}

section Collects

variable {l : Lookup} {module : Option Text} {ms more : List Mention} {ctx after later : Context}

/-- A context in a file of the given module, in the project in which classes are looked up. -/
structure Context.At (l : Lookup) (module : Option Text) (ctx : Context) : Prop where
  project : ctx.project = l.project
  module : ctx.module = module

lemma Context.At.importOf?_eq (h : ctx.At l module) (name : Text) :
    ctx.importOf? name =
      ({ project := l.project, module, className := ctx.className } : Context).importOf? name := by
  rw [importOf?, importOf?, h.project, h.module]

/-- The part of a context that imports depend on, and the imports. -/
def Context.carried (ctx : Context) : Option Project × Option Text × List Text :=
  (ctx.project, ctx.module, ctx.imports)

lemma importOf?_of_className {name : Text} (h : ctx.className = some name) :
    ctx.importOf? name = none := by
  rw [Context.importOf?]
  cases ctx.project with
  | none => rfl
  | some p => exact if_pos (.inl h)

/-- The imports that some mentions ask for were added to a context. -/
structure Collects (l : Lookup) (module : Option Text) (ms : List Mention) (ctx after : Context) :
    Prop where
  kept : after.project = ctx.project ∧ after.module = ctx.module
  imports : after.imports = (ms.filterMap (·.import? l module)).foldl addNew ctx.imports

namespace Collects

lemma site (h : Collects l module ms ctx after) (hat : ctx.At l module) : after.At l module :=
  ⟨h.kept.1.trans hat.project, h.kept.2.trans hat.module⟩

lemma unasked (h : ∀ m ∈ ms, m.import? l module = none) (hsame : after.carried = ctx.carried) :
    Collects l module ms ctx after := by
  refine ⟨⟨congrArg (·.1) hsame, congrArg (·.2.1) hsame⟩, ?_⟩
  rw [filterMap_eq_nil_iff.2 h]
  exact congrArg (·.2.2) hsame

lemma nothing (h : after.carried = ctx.carried) : Collects l module [] ctx after :=
  unasked (by simp) h

lemma trans (h : Collects l module ms ctx after) (h' : Collects l module more after later) :
    Collects l module (ms ++ more) ctx later := by
  refine ⟨⟨h'.kept.1.trans h.kept.1, h'.kept.2.trans h.kept.2⟩, ?_⟩
  rw [h'.imports, h.imports, filterMap_append, foldl_append]

lemma before (h : Collects l module ms ctx after) (h' : later.carried = after.carried) :
    Collects l module ms ctx later := by
  rw [← append_nil ms]
  exact h.trans (nothing h')

lemma importClass {name : Text} (h : m.import? l module = ctx.importOf? name) :
    Collects l module [m] ctx (ctx.importClass name) := by
  have hstanding := ctx.standing_importClass name
  refine ⟨⟨(congrArg Context.project hstanding :), (congrArg Context.module hstanding :)⟩, ?_⟩
  rw [Context.importClass]
  cases himport : ctx.importOf? name with
  | none =>
    rw [himport] at h
    simp [h]
  | some statement =>
    rw [himport] at h
    simp [h, Context.addImport]

end Collects

end Collects

/-! ## What rules write -/

section Rules

variable {l : Lookup} {module : Option Text} {ms : List Mention} {t : Text} {ctx : Context}
  {v : Verdict}

/-- A verdict has the imports of some mentions and lines with their texts. -/
structure Verdict.Writes (l : Lookup) (module : Option Text) (ms : List Mention) (ctx : Context)
    (v : Verdict) : Prop where
  collects : Collects l module ms ctx v.context
  written : ∀ m ∈ ms, m.usage ≠ .unwritten → ∃ line ∈ v.lines.getD [], m.text <:+: line

namespace Verdict.Writes

lemma nothing (h : v.context.lasting = ctx.lasting) : v.Writes l module [] ctx :=
  ⟨.nothing (congrArg Context.carried h :), by simp⟩

lemma one {line : Text} (h : Collects l module [m] ctx after) (htext : m.text <:+: line) :
    Verdict.Writes l module [m] ctx ⟨some [line], after⟩ := by
  refine ⟨h, fun m' hm' _ => ⟨line, mem_cons_self, ?_⟩⟩
  rw [mem_singleton.1 hm']
  exact htext

end Verdict.Writes

variable (hat : ctx.At l module)
include hat

lemma newPageObject_writes :
    Ensures (Verdict.Writes l module (newPageMentions t ctx) ctx) (newPageObject t ctx) := by
  unfold newPageObject newPageMentions
  cases newObject? t with
  | none => exact .decline (.nothing rfl)
  | some found =>
    simp only [bind_eq_bind, bind_some]
    split
    · refine .accept (.one (.before (.importClass (hat.importOf?_eq _).symm) rfl) ?_)
      generalize (if found.typed then "const " else [] : Text) = keyword
      exact ⟨keyword ++ found.name ++ " = ", ctx.pageRef ++ ");", by simp [Mention.text]⟩
    · exact .decline (.nothing rfl)

lemma chainedPageCall_writes :
    Ensures (Verdict.Writes l module (chainedMentions t ctx) ctx) (chainedPageCall t ctx) := by
  unfold chainedPageCall chainedMentions
  cases chainedCall? t with
  | none => exact .decline (.nothing rfl)
  | some found =>
    dsimp only
    split
    · cases splitCall? (found.2 ++ ";") with
      | none => exact .decline ⟨.importClass (hat.importOf?_eq _).symm, by simp⟩
      | some split =>
        refine .accept (.one (.importClass (hat.importOf?_eq _).symm) ?_)
        exact ⟨"await ", (ctx.importClass found.1).pageRef ++ ")." ++ split.1 ++ "(" ++
          join ", " (convertedArguments (ctx.importClass found.1) split.2) ++ ");",
          by simp [Mention.text]⟩
    · exact .decline (.nothing rfl)

lemma throw_writes :
    Ensures (Verdict.Writes l module (thrownMentions t ctx) ctx) (throw t ctx) := by
  unfold throw thrownMentions
  cases ((literal? "throw" t).bind someBlanks?).bind constructed? with
  | none => exact .decline (.nothing rfl)
  | some found =>
    simp only [bind_eq_bind, bind_some]
    cases callArguments? found.2 with
    | none => exact .decline (.nothing rfl)
    | some args =>
      simp only [isSome_some, true_and]
      split_ifs
      · refine .accept (.one (.importClass (hat.importOf?_eq _).symm) ?_)
        exact ⟨[], join ", " (convertedArguments ctx args) ++ ");", by simp [Mention.text]⟩
      · exact .accept (.nothing rfl)

lemma returns_writes :
    Ensures (Verdict.Writes l module (returnedMentions t ctx) ctx) (returns t ctx) := by
  unfold returns returnedMentions
  cases returned? t with
  | none => exact .decline (.nothing rfl)
  | some value =>
    simp only [bind_eq_bind, bind_some]
    by_cases hplain : value.isEmpty = true ∨ (value = "this".toList ∧ ctx.selfRef.isSome = true) ∨
        isLiteral value = true ∨ ctx.scope.contains value = true
    · rw [if_pos hplain]
      split_ifs
      · exact .accept (.nothing rfl)
      · exact .accept (.nothing rfl)
      · exact .accept (.nothing rfl)
      · tauto
    · rw [if_neg hplain]
      rw [not_or, not_or] at hplain
      rw [if_neg hplain.1, if_neg hplain.2.1, if_neg hplain.2.2]
      cases newExpression? value with
      | none => exact .decline (.nothing rfl)
      | some name =>
        simp only [bind_some]
        split_ifs
        · refine .accept (.one (.importClass (hat.importOf?_eq _).symm) ?_)
          exact ⟨"return ", ctx.pageRef ++ ");", by simp [Mention.text]⟩
        · exact .decline (.nothing rfl)

omit hat in
lemma ownCall?_writes (name : Text) (args : List Text) :
    Ensures (Verdict.Writes l module (ownCallMentions ctx name) ctx)
      (Verdict.ofOption ctx ((ownCall? ctx name args).map (·, ctx))) := by
  rw [ownCall?, ownCallMentions]
  split
  · exact .accept (.nothing rfl)
  · cases hclass : ctx.className.filter fun c => ctx.staticMethods.contains name && !c.isEmpty with
    | none => exact .ofOption (.nothing rfl) (.map fun _ _ => .nothing rfl)
    | some className =>
      refine .accept (.one (.unasked (forall_mem_singleton.2 ?_) rfl) ?_)
      · have hnone : ({ project := l.project, module, className := ctx.className } : Context).importOf?
            className = none := importOf?_of_className (filter_eq_some_iff.1 hclass).1
        simp only [Mention.import?, hnone, ite_self]
      · exact ⟨[], join ", " (ctx.pageRef :: args) ++ ");", by simp [Mention.text]⟩

lemma otherCall_writes (receiver name : Text) (args : List Text) :
    Verdict.Writes l module [⟨.receiver name, receiver, ctx.className⟩] ctx
      ⟨some [(otherCall ctx receiver name args).1], (otherCall ctx receiver name args).2⟩ := by
  have hasked : Mention.import? l module ⟨.receiver name, receiver, ctx.className⟩ =
      if (ctx.project.bind (·.get? receiver)).any (·.name = receiver) then ctx.importOf? receiver
      else none := by
    rw [hat.importOf?_eq, hat.project]
    rfl
  unfold otherCall
  cases hknown : (ctx.project.bind (·.get? receiver)).filter (·.name = receiver) with
  | none =>
    have hnone : Mention.import? l module ⟨.receiver name, receiver, ctx.className⟩ = none := by
      rw [hasked]
      cases hc : ctx.project.bind (·.get? receiver) with
      | none => rfl
      | some c => rw [any_some, if_neg (filter_eq_none_iff.1 hknown c hc)]
    refine .one (.unasked (forall_mem_singleton.2 hnone) rfl) ?_
    exact ⟨[], join ", " args ++ ");", by simp [Mention.text]⟩
  | some c =>
    obtain ⟨hc, hname⟩ := filter_eq_some_iff.1 hknown
    have hname : c.name = receiver := of_decide_eq_true hname
    have himport : Mention.import? l module ⟨.receiver name, receiver, ctx.className⟩ =
        ctx.importOf? c.name := by
      rw [hasked, hc, any_some, if_pos (decide_eq_true hname), hname]
    refine .one (.before (.importClass himport) rfl) ?_
    dsimp only
    generalize (if (c.methods.any fun m => m.name = name && m.isStatic) = true then
      ctx.pageRef :: args else args) = listed
    exact ⟨[], join ", " listed ++ ");", by simp [Mention.text]⟩

lemma genericCall_writes :
    Ensures (Verdict.Writes l module (calledMentions t ctx) ctx) (genericCall t ctx) := by
  simp only [genericCall, calledMentions, bind_eq_bind, ← bind_assoc]
  cases (callStatement? t).bind splitCall? with
  | none => exact .decline (.nothing rfl)
  | some call =>
    simp only [bind_some]
    split_ifs
    · exact .decline (.nothing rfl)
    · exact ownCall?_writes _ _
    · exact .decline (.nothing rfl)
    · exact .accept (otherCall_writes hat _ _ _)

omit hat in
lemma writes_of_lasting {name : Text} {apply : Text → Context → Except Fault Verdict}
    (hname : mentioningRules.get? name = none)
    (hkeeps : ∀ t ctx, Verdict.Keeps Context.lasting ctx (apply t ctx)) (t : Text) (ctx : Context)
    (_ : ctx.At l module) :
    Ensures (Verdict.Writes l module (ruleMentions name t ctx) ctx) (apply t ctx) := by
  intro v h
  rw [ruleMentions, hname]
  exact .nothing (hkeeps t ctx v h)

omit hat in
/-- **A rule** writes what it mentions and imports what that asks for. -/
lemma rule_writes : ∀ rule ∈ rules, ∀ t ctx, ctx.At l module →
    Ensures (Verdict.Writes l module (ruleMentions rule.name t ctx) ctx) (rule.apply t ctx) := by
  simp only [rules, forall_mem_cons]
  exact ⟨writes_of_lasting rfl elementWait_keeps, writes_of_lasting rfl driverWait_keeps,
    writes_of_lasting rfl elementAction_keeps, writes_of_lasting rfl sleep_keeps,
    writes_of_lasting rfl assertion_keeps, writes_of_lasting rfl elementAssertion_keeps,
    writes_of_lasting rfl log_keeps, writes_of_lasting rfl navigate_keeps,
    writes_of_lasting rfl history_keeps, fun _ _ => newPageObject_writes,
    fun _ _ => chainedPageCall_writes, fun _ _ => throw_writes, fun _ _ => returns_writes,
    writes_of_lasting rfl literalDeclaration_keeps, fun _ _ => genericCall_writes, by simp⟩

omit hat in
/-- The rules that are tried write what they mention, which is in the lines of the last of them. -/
lemma applyRules_writes {tried : List Rule}
    (htried : ∀ rule ∈ tried, ∀ t ctx, ctx.At l module → Ensures (Verdict.Writes l module (ruleMentions rule.name t ctx) ctx) (rule.apply t ctx))
    {found : Option (Rule × List Text)} (hat : ctx.At l module)
    (h : applyRules t ctx tried = .ok (found, after)) :
    Verdict.Writes l module (triedMentions t ctx tried) ctx ⟨found.map (·.2), after⟩ := by
  induction tried generalizing ctx with
  | nil =>
    cases h
    exact .nothing rfl
  | cons rule rest ih =>
    obtain ⟨verdict, hverdict, hcases⟩ := applyRules_cons_eq_ok h
    have hwrites := htried rule mem_cons_self t ctx hat verdict hverdict
    rw [triedMentions, hverdict]
    rcases hcases with ⟨lines, rfl, rfl⟩ | ⟨hlines, h⟩
    · simpa using hwrites
    · have hrest := ih (fun r hr => htried r (mem_cons_of_mem _ hr)) (hwrites.collects.site hat) h
      dsimp only
      rw [hlines]
      refine ⟨hwrites.collects.trans hrest.collects, fun m hm husage => ?_⟩
      rcases mem_append.1 hm with hm | hm
      · obtain ⟨line, hline, -⟩ := hwrites.written m hm husage
        rw [hlines] at hline
        cases hline
      · exact hrest.written m hm husage

/-- **A statement** writes what it mentions. -/
lemma statement_writes {line : Int} {lines : List Text} (h : statement line text ctx = .ok (lines, after)) :
    Verdict.Writes l module (statementMentions text ctx) ctx ⟨some lines, after⟩ := by
  have hleft : ∀ t ctx, (leftOver line t ctx).2.carried = ctx.carried := by
    intro t ctx
    rw [leftOver]
    split_ifs <;> rfl
  simp only [statement] at h
  rw [statementMentions]
  split_ifs at h ⊢
  · obtain ⟨⟨found, tried⟩, hrules, h⟩ := exists_of_bind_eq_ok h
    have hwrites := applyRules_writes rule_writes hat hrules
    cases found with
    | some found =>
      cases h
      exact hwrites
    | none =>
      have hafter := hleft (trim text) tried
      rw [Except.ok.inj h] at hafter
      refine ⟨hwrites.collects.before hafter, fun m hm husage => ?_⟩
      obtain ⟨_, hnone, -⟩ := hwrites.written m hm husage
      cases hnone
  · have hafter := hleft (trim text) ctx
    rw [Except.ok.inj h] at hafter
    exact ⟨.nothing hafter, by simp⟩

end Rules

/-! ## What a walk writes -/

/-- Between two states of a walk some mentions were written, and the imports that they ask for were
added. -/
structure Walk.Writes (l : Lookup) (module : Option Text) (ms : List Mention) (w w' : Walk) : Prop where
  collects : Collects l module ms w.context w'.context
  kept : w.sheet.bodyTexts ⊆ w'.sheet.bodyTexts
  written : ∀ m ∈ ms, m.usage ≠ .unwritten → ∃ line ∈ w'.sheet.bodyTexts, m.text <:+: line

namespace Walk.Writes

variable {l : Lookup} {module : Option Text} {ms more : List Mention} {w w' w'' : Walk}

lemma of_calls (h : Collects l module ms w.context w'.context)
    (hsheet : w'.sheet = w.sheet.performAll calls)
    (hwritten : ∀ m ∈ ms, m.usage ≠ .unwritten → ∃ c ∈ calls, ∃ line ∈ c.lines, m.text <:+: line) :
    Writes l module ms w w' := by
  refine ⟨h, ?_, fun m hm husage => ?_⟩
  · rw [hsheet]
    exact (w.sheet.bodyTexts_sublist_performAll calls).subset
  · obtain ⟨c, hc, line, hline, htext⟩ := hwritten m hm husage
    rw [hsheet]
    exact ⟨line, w.sheet.mem_bodyTexts_performAll hc hline, htext⟩

lemma nothing (h : w'.context.carried = w.context.carried) (hsheet : w'.sheet = w.sheet.performAll calls) :
    Writes l module [] w w' :=
  of_calls (.nothing h) hsheet (by simp)

lemma same (h : (w'.context.carried, w'.sheet) = (w.context.carried, w.sheet)) : Writes l module [] w w' :=
  nothing (congrArg (·.1) h) ((congrArg (·.2) h :).trans (w.sheet.performAll_nil).symm)

lemma trans (h : Writes l module ms w w') (h' : Writes l module more w' w'') :
    Writes l module (ms ++ more) w w'' := by
  refine ⟨h.collects.trans h'.collects, Subset.trans h.kept h'.kept, fun m hm husage => ?_⟩
  rcases mem_append.1 hm with hm | hm
  · obtain ⟨line, hline, htext⟩ := h.written m hm husage
    exact ⟨line, h'.kept hline, htext⟩
  · exact h'.written m hm husage

lemma before (h : Writes l module ms w w') (h' : Writes l module [] w' w'') :
    Writes l module ms w w'' := by
  rw [← append_nil ms]
  exact h.trans h'

lemma of_same {v : Walk} (h : Writes l module ms v w') (hcontext : v.context = w.context)
    (hsheet : v.sheet = w.sheet) : Writes l module ms w w' := by
  refine ⟨?_, ?_, h.written⟩
  · rw [← hcontext]
    exact h.collects
  · rw [← hsheet]
    exact h.kept

end Walk.Writes

/-! ## Types -/

section Types

variable {l : Lookup} {module : Option Text} {ctx : Context}

lemma typeReference_collects (hat : ctx.At l module) {usage : Usage} (type : Text)
    (husage : usage = .result ∨ ∃ name, usage = .parameter name) :
    Collects l module [⟨usage, typeName type, ctx.className⟩] ctx (typeReference l type ctx).2 := by
  have hasked : Mention.import? l module ⟨usage, typeName type, ctx.className⟩ =
      if (l.class? (dropBrackets (typeName type))).isSome then
        ctx.importOf? (dropBrackets (typeName type)) else none := by
    rw [hat.importOf?_eq]
    rcases husage with rfl | ⟨name, rfl⟩ <;> rfl
  rw [typeReference]
  split_ifs at hasked ⊢
  · exact .importClass hasked
  · exact .unasked (forall_mem_singleton.2 hasked) rfl

lemma className_of_standing (h : after.standing = ctx.standing) : after.className = ctx.className := by
  have hstanding : after.standing.className = ctx.standing.className := by rw [h]
  exact hstanding

lemma typedParameters_collects (hat : ctx.At l module) (ps : List Parameter) :
    Collects l module (ps.map fun p => ⟨.parameter p.name, typeName p.type, ctx.className⟩) ctx
      (typedParameters l ps ctx).2 := by
  induction ps generalizing ctx with
  | nil => exact .nothing rfl
  | cons p rest ih =>
    have hfirst := typeReference_collects hat p.type (.inr ⟨p.name, rfl⟩)
    have hrest := ih (hfirst.site hat)
    rw [className_of_standing (typeReference_standing l p.type ctx)] at hrest
    exact hfirst.trans hrest

lemma typedParameters_eq (l : Lookup) (ps : List Parameter) (ctx : Context) :
    (typedParameters l ps ctx).1 = ps.map fun p => p.name ++ ": " ++ typeName p.type := by
  induction ps generalizing ctx with
  | nil => rfl
  | cons p rest ih => exact congrArg (_ :: ·) (ih _)

lemma methodHeader_cases (l : Lookup) (style : Style) (sig : Signature) (step : Option Step)
    (ctx : Context) :
    let typed := typedParameters l (parameters sig.params) ctx
    let result := sig.result.getD []
    ((style = .steps ∧ step.isSome = true) ∧ ∃ found,
      methodHeader l style sig step ctx = (stepHeader found typed.1, typed.2)) ∨
    (¬(style = .steps ∧ step.isSome = true) ∧ ∃ opening given header,
      opening ∈ (["async function ", "static async ", "async "] : List Text) ∧
      given ⊆ ["page: Page".toList] ∧
      header.line = opening ++ sig.name ++ "(" ++ join ", " (given ++ typed.1) ++ "): Promise<" ++
        typeName result ++ "> \x7b" ∧
      methodHeader l style sig step ctx = (header, (typeReference l result typed.2).2)) := by
  unfold methodHeader
  dsimp only
  split
  · exact .inl ⟨⟨rfl, rfl⟩, _, rfl⟩
  · rename_i hother
    refine .inr ⟨?_, ?_⟩
    · rintro ⟨rfl, hstep⟩
      obtain ⟨found, rfl⟩ := isSome_iff_exists.1 hstep
      exact hother found rfl rfl
    · split_ifs
      · exact ⟨"async function ", ["page: Page"], _, by simp, Subset.refl _, rfl, rfl⟩
      · exact ⟨"static async ", ["page: Page"], _, by simp, Subset.refl _, rfl, rfl⟩
      · exact ⟨"async ", [], _, by simp, nil_subset _, rfl, rfl⟩

lemma methodHeader_collects (hat : ctx.At l module) (style : Style) (sig : Signature)
    (step : Option Step) :
    Collects l module (headerMentions style sig step ctx.className) ctx
      (methodHeader l style sig step ctx).2 := by
  have htyped := typedParameters_collects hat (parameters sig.params)
  rw [headerMentions]
  rcases methodHeader_cases l style sig step ctx with ⟨hstep, _, heq⟩ | ⟨hstep, _, _, _, _, _, _, heq⟩
  · rw [heq, if_pos hstep, append_nil]
    exact htyped
  · have hresult := typeReference_collects (htyped.site hat) (sig.result.getD []) (.inl rfl)
    rw [className_of_standing (typedParameters_standing l _ ctx)] at hresult
    rw [heq, if_neg hstep]
    exact htyped.trans hresult

lemma infix_methodHeader {step : Option Step} {within : Option Text}
    (hm : m ∈ headerMentions style sig step within) (ctx : Context) :
    m.text <:+: (methodHeader l style sig step ctx).1.line := by
  have hlisted : ∀ {listed : List Text}, (typedParameters l (parameters sig.params) ctx).1 ⊆ listed →
      ∀ p ∈ parameters sig.params, (p.name ++ ": " ++ typeName p.type : Text) <:+: join ", " listed := by
    intro listed hsubset p hp
    refine infix_join _ (hsubset ?_)
    rw [typedParameters_eq]
    exact mem_map_of_mem hp
  rw [headerMentions, mem_append] at hm
  rcases methodHeader_cases l style sig step ctx with ⟨hstep, found, heq⟩ |
    ⟨hstep, opening, given, header, -, -, hline, heq⟩
  · rw [if_pos hstep] at hm
    rcases hm with hm | hm
    · obtain ⟨p, hp, rfl⟩ := mem_map.1 hm
      rw [heq]
      refine (hlisted (subset_cons_self "\x7b page \x7d".toList _) p hp).trans ?_
      exact ⟨_, _, rfl⟩
    · cases hm
  · rw [if_neg hstep] at hm
    rw [heq, hline]
    rcases hm with hm | hm
    · obtain ⟨p, hp, rfl⟩ := mem_map.1 hm
      refine (hlisted (subset_append_right given _) p hp).trans ⟨opening ++ sig.name ++ "(",
        "): Promise<" ++ typeName (sig.result.getD []) ++ "> \x7b", ?_⟩
      simp only [append_assoc]
    · rw [mem_singleton.1 hm]
      generalize join ", " _ = listed
      exact ⟨opening ++ sig.name ++ "(" ++ listed ++ "): ", " \x7b", by simp [Mention.text]⟩

end Types

namespace Walk

variable {around : Surroundings} {module : Option Text} {w w' : Walk} {s : Statement} {l : Lookup}

lemma convert_writes (hat : w.context.At l module) {line : Nat} (h : w.convert line text = .ok w') :
    Writes l module (statementMentions text w.context) w w' := by
  obtain ⟨⟨lines, after⟩, hstatement, h⟩ := exists_of_bind_eq_ok h
  cases h
  obtain ⟨hcollects, hwritten⟩ := statement_writes hat hstatement
  have hsheet : w.sheet.emitAll lines = w.sheet.performAll [.emit lines] := rfl
  refine .of_calls hcollects hsheet fun m hm husage => ?_
  exact ⟨_, mem_cons_self, hwritten m hm husage⟩

/-! Classes. -/

lemma base_written (name base : Text) (fields : List Text) (parameter : Text) (constructor : List Text)
    (within : Option Text) :
    ∃ c ∈ classCalls name (some base) fields parameter constructor, ∃ line ∈ c.lines,
      (⟨.base, base, within⟩ : Mention).text <:+: line := by
  refine ⟨_, mem_cons_self, _, mem_cons_self, "export class " ++ name, [], ?_⟩
  simp [Mention.text]

/-- A class that is no set of steps imports the class that it extends, and its header shows it. -/
lemma openStyle_of_ne (w : Walk) (hstyle : Style.ofRoles (l.roles info) = style) (hsteps : style ≠ .steps) :
    (w.openStyle l info style).context =
        ((l.extended? info).map fun p => w.context.importClass p.name).getD w.context ∧
      ∀ p ∈ l.extended? info, ∀ within, ∃ c ∈ styleCalls l info w.bound style, ∃ line ∈ c.lines,
        (⟨.base, p.name, within⟩ : Mention).text <:+: line := by
  rw [Lookup.extended?, hstyle]
  cases style with
  | steps => exact absurd rfl hsteps
  | exception =>
    rw [openStyle, openException, styleCalls, exceptionCalls]
    cases (l.parent? info).filter fun p => (l.roles p).isException with
    | none => exact ⟨rfl, by simp⟩
    | some p =>
      refine ⟨rfl, ?_⟩
      rintro _ ⟨⟩ within
      exact base_written ..
  | page =>
    rw [openStyle, openPage, styleCalls, pageCalls]
    dsimp only
    cases (l.parent? info).filter fun p => l.isPageType p.name with
    | none => exact ⟨rfl, by simp⟩
    | some p =>
      refine ⟨rfl, ?_⟩
      rintro _ ⟨⟩ within
      exact base_written ..

lemma openStyle_writes (hat : w.context.At l module) (hstyle : Style.ofRoles (l.roles info) = style)
    (hclass : style ≠ .steps → w.context.className = some info.name) :
    Writes l module (styleMentions l info w.bound style) w (w.openStyle l info style) := by
  have hsheet := w.sheet_openStyle l info style
  by_cases hsteps : style = .steps
  · subst hsteps
    rw [styleMentions]
    by_cases hbound : w.bound = true
    · rw [if_pos hbound]
      refine .nothing ?_ hsheet
      rw [openStyle, openSteps, if_pos hbound]
    · rw [if_neg hbound]
      refine .of_calls ?_ hsheet (forall_mem_singleton.2 fun _ => ?_)
      · rw [openStyle, openSteps, if_neg hbound]
        exact ⟨⟨rfl, rfl⟩, rfl⟩
      · rw [styleCalls, if_neg hbound]
        exact ⟨_, mem_cons_self, _, mem_cons_self,
          "const \x7b Given, When, Then, Step \x7d ", [], by decide⟩
  · obtain ⟨hcontext, hwritten⟩ := w.openStyle_of_ne hstyle hsteps
    have hmentions : styleMentions l info w.bound style =
        (l.extended? info).toList.map fun p => ⟨.base, p.name, some info.name⟩ := by
      cases style with
      | steps => exact absurd rfl hsteps
      | exception | page => rfl
    rw [hmentions]
    refine .of_calls ?_ hsheet ?_
    · rw [hcontext]
      cases l.extended? info with
      | none => exact .nothing rfl
      | some p =>
        refine .importClass ?_
        rw [hat.importOf?_eq, hclass hsteps]
        rfl
    · rintro _ hm -
      obtain ⟨p, hp, rfl⟩ := mem_map.1 hm
      exact hwritten p (mem_toList.1 hp) _

lemma openClass_writes (hat : w.context.At l module) (s : Statement) (h : ClassHeader) :
    Writes l module (classMentions l h w.bound) w (w.openClass l s h) := by
  by_cases hkind : h.kind = "class".toList
  · obtain ⟨info, style, hinfo, hstyle, -, hopen⟩ := w.openClass_eq l s h hkind
    have hinside : (classContext l info style w.context).At l module := ⟨hat.project, hat.module⟩
    have hentered : Writes l module [] w (w.onContext (classContext l info style)) :=
      .same rfl
    have hopened := hentered.trans (openStyle_writes hinside hstyle.symm fun hsteps => if_neg hsteps)
    have hclosed : ∀ styled : Walk, Writes l module [] styled (styled.onSheet (·.closeScope)) := by
      intro styled
      have hsheet : styled.sheet.closeScope = styled.sheet.performAll [.closeScope] := rfl
      exact .nothing rfl hsheet
    rw [classMentions, if_neg (by simp [hkind]), ← hinfo]
    dsimp only
    rw [← hstyle, hopen]
    refine hopened.before ?_
    split_ifs
    · exact .same rfl
    · exact hclosed _
    · exact .same rfl
  · rw [openClass, classMentions, if_pos hkind, if_pos hkind]
    exact .same rfl

lemma skip_writes (w : Walk) (s : Statement) (reason : Text) (opened : Bool) :
    Writes l module [] w (w.skip s reason opened) := by
  have hcarried := congrArg Context.carried (w.context_skip s reason opened)
  exact .nothing hcarried ((w.sheet_skip s reason opened).trans (w.sheet.performAll_nil).symm)

lemma topLevel_writes (hat : w.context.At l module) (s : Statement) (before : Nat) :
    Writes l module (topLevelMentions l s w.bound) w (w.topLevel l s before) := by
  rw [topLevelMentions]
  rcases w.topLevel_cases l s before with ⟨hheading, _, -, hw⟩ |
    ⟨⟨hpackage, himport⟩, ⟨htext, hw⟩ | ⟨htext, hclass⟩⟩
  · rw [hw, if_pos (hheading.imp_right .inl)]
    exact .same rfl
  · rw [hw, if_pos (.inr (.inr htext))]
    exact .same rfl
  rw [if_neg (by simp [hpackage, himport, htext])]
  rcases hclass with ⟨h, hheader, hw⟩ | ⟨hheader, hw⟩
  · have hcleared : ({ w with pending := [] } : Walk).context.At l module := hat
    rw [hw, hheader]
    exact (openClass_writes hcleared s h).of_same rfl rfl
  · rw [hw, hheader]
    exact (skip_writes ..).of_same rfl rfl

/-! Members. -/

lemma infix_propertyLine (hsteps : style ≠ .steps) (f : FieldHeader) (info : FieldInfo) (value : Text)
    (within : Option Text) :
    (⟨.property info.name, typeName info.type, within⟩ : Mention).text <:+:
      propertyLine style f info value := by
  unfold propertyLine
  rw [if_neg hsteps]
  generalize (if info.isStatic then "static " else [] : Text) = keyword
  generalize (if f.modifiers.contains "final" then "readonly " else [] : Text) = readonly
  exact ⟨keyword ++ readonly, plainLiteral value ++ ";", by simp [Mention.text]⟩

lemma field_writes (w : Walk) (l : Lookup) (s : Statement) (style : Style) (f : FieldHeader)
    (annotations : List Text) :
    Writes l module (fieldMentions l style f annotations w.context.className) w
      (w.field l s style f annotations) := by
  have hcarried : (w.field l s style f annotations).context.carried = w.context.carried := by
    rcases w.context_field l s style f annotations with hw | ⟨_, hw⟩ <;> exact (congrArg Context.carried hw :)
  have hsheet := w.sheet_field l s style f annotations
  rw [fieldMentions]
  split_ifs with hnone
  · exact .nothing hcarried hsheet
  · refine .of_calls (.unasked (forall_mem_singleton.2 rfl) hcarried) hsheet
      (forall_mem_singleton.2 fun _ => ?_)
    rw [not_or, not_or] at hnone
    obtain ⟨helement, hsteps, hliteral⟩ := hnone
    have hliteral : isLiteral (trim ((Analysis.fieldInfo f annotations).initial.getD [])) = true := by
      simpa using hliteral
    rw [fieldCalls, if_neg helement, if_pos hliteral]
    refine ⟨_, mem_cons_self, _, mem_cons_self, ?_⟩
    exact infix_propertyLine hsteps ..

lemma collects_foldl_constructPage (hat : w.context.At l module) (pages : List FieldInfo) :
    Collects l module (pages.map fun f => ⟨.constructed, f.elementType, w.context.className⟩) w.context
      (pages.foldl constructPage w).context := by
  induction pages generalizing w with
  | nil => exact .nothing rfl
  | cons f pages ih =>
    have hfirst : Collects l module [⟨.constructed, f.elementType, w.context.className⟩] w.context
        (w.constructPage f).context :=
      .before (.importClass (hat.importOf?_eq _).symm) rfl
    have hrest := ih (hfirst.site hat)
    have hclass : (w.constructPage f).context.className = w.context.className :=
      className_of_standing (w.context.standing_importClass f.elementType)
    rw [hclass] at hrest
    exact hfirst.trans hrest

lemma startMethod_writes (hat : w.context.At l module) (info : ClassInfo) (style : Style)
    (sig : Signature) (annotations : List Text) :
    Writes l module (startMentions l info style sig annotations w.context.className) w
      (w.startMethod l info style sig annotations) := by
  obtain ⟨header, hheader⟩ : ∃ header,
      header = methodHeader l style sig (stepAnnotation? annotations) w.context := ⟨_, rfl⟩
  obtain ⟨started, hstart, hcontext⟩ : ∃ started : Walk, w.startMethod l info style sig annotations =
        (if style = .steps then (namedPages l info sig.name).foldl constructPage started else started) ∧
      started.context = header.2.enterMethod ((parameters sig.params).map (·.name)) header.1.pageRef
        header.1.selfRef := by
    rw [hheader]
    exact ⟨_, rfl, rfl⟩
  have hstarted : Collects l module
      (headerMentions style sig (stepAnnotation? annotations) w.context.className) w.context
      started.context := by
    rw [hcontext, hheader]
    exact (methodHeader_collects hat ..).before rfl
  have hclass : started.context.className = w.context.className := by
    have hkept := className_of_standing
      (methodHeader_standing l style sig (stepAnnotation? annotations) w.context)
    rw [hcontext, hheader]
    exact hkept
  refine .of_calls ?_ (w.sheet_startMethod l info style sig annotations) fun m hm _ => ?_
  · rw [startMentions, hstart]
    split_ifs
    · have hpages := collects_foldl_constructPage (hstarted.site hat) (namedPages l info sig.name)
      rw [hclass] at hpages
      exact hstarted.trans hpages
    · rw [append_nil]
      exact hstarted
  · rw [startCalls]
    rcases mem_append.1 hm with hm | hm
    · exact ⟨_, mem_cons_self, _, mem_cons_self, infix_methodHeader hm _⟩
    · split_ifs at hm ⊢
      · obtain ⟨f, hf, rfl⟩ := mem_map.1 hm
        refine ⟨_, mem_cons_of_mem _ (mem_map_of_mem hf), _, mem_cons_self, ?_⟩
        exact ⟨"const " ++ f.name ++ " = ", "page);", by simp [Mention.text]⟩
      · cases hm

variable (hat : w.context.At around.lookup module)
include hat

lemma method_writes (h : w.method around s info style sig annotations opened = .ok w') :
    Writes around.lookup module (methodMentions around.lookup w info style sig annotations opened)
      w w' := by
  have hblank : Writes around.lookup module [] w (w.onSheet (·.blank)) := by
    have hsheet : w.sheet.blank = w.sheet.performAll [.blank] := rfl
    exact .nothing rfl hsheet
  have hinside : (w.onSheet (·.blank)).context.At around.lookup module := hat
  have hstarted := hblank.trans (startMethod_writes hinside info style sig annotations)
  rw [methodMentions]
  rcases method_cases h with ⟨hskipped, rfl | rfl⟩ | ⟨hkept, rfl, rfl⟩ | ⟨hkept, rfl, after, hafter, rfl⟩
  · rw [if_pos hskipped]
    exact skip_writes ..
  · rw [if_pos hskipped]
    exact .same rfl
  · rw [if_neg hkept, if_pos (.inl rfl), append_nil]
    exact hstarted.before (.same rfl)
  · rw [if_neg hkept]
    have hleft : Writes around.lookup module [] after
        ((after.onSheet (·.closeScope)).finishMethod around.recognizer sig.name
          (w.onSheet (·.blank)).sheet.mark) := by
      have hsheet : ((after.onSheet (·.closeScope)).finishMethod around.recognizer sig.name
          (w.onSheet (·.blank)).sheet.mark).sheet = after.sheet.performAll (.closeScope ::
            noteCalls around.recognizer (after.onSheet (·.closeScope)) (w.onSheet (·.blank)).sheet.mark) :=
        sheet_finishMethod ..
      exact .nothing (congrArg Context.carried (context_finishMethod ..) :) hsheet
    by_cases hempty : (inlineBody (trim sig.ending)).isEmpty = true
    · rw [if_pos hempty] at hafter
      cases hafter
      rw [if_pos (.inr hempty), append_nil]
      exact hstarted.before hleft
    · rw [if_neg hempty] at hafter
      rw [if_neg (by simp [hempty])]
      exact hstarted.trans ((convert_writes (hstarted.collects.site hat) hafter).before hleft)

omit hat in
lemma memberMentions_eq (l : Lookup) (w : Walk) (s : Statement) (info : ClassInfo) (style : Style)
    (bodyDepth : Nat) :
    let annotations := w.pending ++ (splitAnnotations s.text).1
    memberMentions l w s info style bodyDepth = memberCase s info style [] (fun _ => [])
      (methodMentions l { w with pending := [] } info style · annotations (bodyDepth < w.depth))
      (fieldMentions l style · annotations w.context.className) := by
  simp only [memberMentions, declarationMentions, ite_or]
  rfl

lemma member_writes {bodyDepth : Nat} (h : w.member around s info style bodyDepth = .ok w') :
    Writes around.lookup module (memberMentions around.lookup w s info style bodyDepth) w w' := by
  have hcleared : ({ w with pending := [] } : Walk).context.At around.lookup module := hat
  rw [member_eq] at h
  rw [memberMentions_eq]
  cases memberPlace s info style with
  | waiting hcase =>
    rw [hcase] at h ⊢
    cases h
    exact .same rfl
  | skipped reason _ hcase =>
    rw [hcase] at h ⊢
    cases h
    exact (skip_writes ..).of_same rfl rfl
  | method sig _ _ hcase =>
    rw [hcase] at h ⊢
    exact (method_writes hcleared h).of_same rfl rfl
  | field f _ hcase =>
    rw [hcase] at h ⊢
    cases h
    exact (field_writes { w with pending := [] } ..).of_same rfl rfl

/-! Bodies of methods. -/

omit hat in
lemma closing_carried (w : Walk) (s : Statement) (inBlock : Bool) (rest : Text) :
    (w.closing s inBlock rest).context.carried = w.context.carried := by
  rcases closing_cases w s inBlock rest with hclosing | ⟨_, _, hheader, hclosing⟩ | hclosing
  · rw [hclosing]
  · rw [hclosing]
    exact (congrArg Context.carried (controlHeader?_lasting hheader) :)
  · rw [hclosing]
    rfl

omit hat in
lemma opening_carried (w : Walk) (s : Statement) :
    (w.opening s).context.carried = w.context.carried := by
  rcases opening_cases w s with ⟨_, _, hheader, hopening⟩ | hopening
  · rw [hopening]
    exact (congrArg Context.carried (controlHeader?_lasting hheader) :)
  · rw [hopening]
    rfl

omit hat in
lemma bodyStatement_writes (hat : w.context.At l module) {inBlock : Bool}
    (h : w.bodyStatement s inBlock = .ok w') :
    Writes l module (bodyMentions s w.context) w w' := by
  have hsheet := sheet_bodyStatement h
  rw [bodyMentions_eq]
  cases bodyPlace s with
  | closing _ _ hpart hwalk _ =>
    rw [hwalk] at h
    cases h
    rw [hpart]
    exact .nothing (closing_carried ..) hsheet
  | opening _ _ hpart hwalk _ =>
    rw [hwalk] at h
    cases h
    rw [hpart]
    exact .nothing (opening_carried ..) hsheet
  | other _ _ _ hwalk _ =>
    rw [hwalk] at h
    cases hpart : bodyPart? s with
    | none =>
      rw [hpart] at h
      cases h
      exact .nothing rfl hsheet
    | some part =>
      rw [hpart] at h
      exact convert_writes hat h

/-! Statements. -/

omit hat in
lemma unwindFrames_writes (w : Walk) (recognizer : Option Recognizer) (frames : List Frame) :
    Writes l module [] w (unwindFrames recognizer w frames) := by
  refine .nothing ?_ (w.sheet_unwindFrames recognizer frames)
  rcases w.unwindFrames_context recognizer frames with hw | hw <;> exact (congrArg Context.carried hw :)

lemma within_writes {before : Nat} {frame : Option Frame} (h : w.within around before s frame = .ok w') :
    Writes around.lookup module (withinMentions around.lookup w before s frame) w w' := by
  unfold within at h
  unfold withinMentions
  by_cases hclosers : isClosersOnly s.text = true ∧ (!isCommented frame) = true
  · rw [if_pos hclosers] at h ⊢
    cases h
    exact .same rfl
  · rw [if_neg hclosers] at h ⊢
    rcases frame with _ | ⟨_ | ⟨info, style⟩ | _ | _ | _, depth⟩
    · cases h
      exact topLevel_writes hat s before
    · cases h
      exact .same rfl
    · dsimp only at h ⊢
      split_ifs at h ⊢
      · exact member_writes hat h
      · cases h
        exact .same rfl
    · exact bodyStatement_writes hat h
    · exact bodyStatement_writes hat h
    · cases h
      have hsheet : (w.todo s).sheet = w.sheet.performAll (todoCalls s) := rfl
      exact .nothing rfl hsheet

/-- **A statement** writes what it mentions. -/
lemma step_writes (h : w.step around s = .ok w') :
    Writes around.lookup module (stepMentions around.lookup w s) w w' := by
  have hsheet := sheet_step h
  rw [stepMentions]
  rcases step_cases h with ⟨hcomment, rfl⟩ | ⟨hcode, inside, hinside, rfl⟩
  · rw [if_pos hcomment]
    refine .nothing ?_ hsheet
    split_ifs <;> rfl
  · rw [if_neg (by simp [hcode])]
    have hcount : Writes around.lookup module [] w (w.count s) :=
      .nothing (congrArg Context.carried (w.context_count s)) (w.sheet_count s)
    have hwithin := within_writes (hcount.collects.site hat) hinside
    exact (hcount.trans hwithin).before (unwindFrames_writes ..)

/-- **A walk** writes what its statements mention. -/
lemma foldlM_writes {statements : List Statement} (h : statements.foldlM (step around) w = .ok w') :
    Writes around.lookup module (walkMentions around w statements) w w' := by
  induction statements generalizing w with
  | nil =>
    cases h
    exact .same rfl
  | cons s rest ih =>
    obtain ⟨next, hnext, h⟩ := foldlM_cons_eq_ok.1 h
    have hfirst := step_writes hat hnext
    rw [walkMentions, hnext]
    exact hfirst.trans (ih (hfirst.collects.site hat) h)

end Walk

end Restage.Conversion
