import Restage.Proofs.Batch.WrittenOutput
import Restage.Proofs.Conversion.Stateless
import Restage.Proofs.Text.Order

/-!
# What a batch says about its files

A batch first reads and analyses all files, and this settles what they are converted with: a
`Session`.  Then the files take turns (`Session.turns`), each in the world that those before it have
left.  A file that cannot be read is recorded before the others are converted, which changes the
order of the results but not what they are (`Session.perm_results`).

What a file gives depends on the world of its turn in two ways: its output is written into the tree,
and the recognizer knows what it was asked before.
-/

namespace Restage.Batch

open Text List Conversion Plan

/-! ## Reading files -/

variable {plan : Plan} {target : Path} {task : Conversion.Task} {output : Conversion.Output}
  {tree : FileTree}

namespace Plan

variable {e : Encoding} {tree : FileTree} {path : Path} {rest : List Path} {source : Source}

lemma readFiles_cons_of_error {failure : Failure} (h : readFile e tree path = .error failure) :
    readFiles e tree (path :: rest) =
      ((readFiles e tree rest).1, ⟨path, .error failure⟩ :: (readFiles e tree rest).2) := by
  rw [readFiles, foldr_cons, h]
  rfl

lemma readFiles_cons_of_ok (h : readFile e tree path = .ok source) :
    readFiles e tree (path :: rest) =
      (source :: (readFiles e tree rest).1, (readFiles e tree rest).2) := by
  rw [readFiles, foldr_cons, h]
  rfl

lemma path_of_readFile (h : readFile e tree path = .ok source) : source.path = path := by
  rw [readFile] at h
  cases hbytes : tree.read path with
  | error error =>
    rw [hbytes] at h
    cases h
  | ok bytes =>
    rw [hbytes] at h
    dsimp only at h
    cases htext : e.decode bytes with
    | error fault =>
      rw [htext] at h
      cases h
    | ok text =>
      rw [htext] at h
      cases h
      rfl

lemma name_ne_nil_of_outputFor {root outputRoot : Path}
    (h : plan.outputFor path root outputRoot = .ok target) : target.name ≠ [] := by
  obtain ⟨below, -, htarget⟩ := exists_of_bind_eq_ok h
  obtain ⟨-, hname, rfl⟩ := Path.withSuffix_eq_ok_iff.1 htarget
  have hstem := mt Path.stem_eq_nil_iff.1 hname
  simp [Path.withLast, Path.name, hstem]

lemma task_eq (plan : Plan) (root : Path) (project : Option Project) (asked : List (List Action))
    (source : Source) : plan.task root project asked source =
      (plan.task root project [] source).map fun task => { task with asked } := by
  rw [task, task]
  cases Module.ofPath source.path (some root) <;> rfl

lemma recognizer_of_task {root : Path} {project : Option Project} {asked : List (List Action)}
    (h : plan.task root project asked source = .ok task) : task.recognizer = plan.recognizer := by
  obtain ⟨module, -, htask⟩ := exists_of_bind_eq_ok h
  cases htask
  rfl

end Plan

/-- What the files of a batch are converted with. -/
structure Session where
  plan : Plan
  /-- The files as they are read. -/
  tree : FileTree
  encoding : Encoding
  root : Path
  outputRoot : Path
  project : Option Project

namespace Session

/-! ## The turn of a file -/

section Turn

variable (s : Session)

/-- The output of a file and where it goes; nothing is written yet. -/
def produce (asked : List (List Action)) (source : Plan.Source) :
    Except Failure (Path × Conversion.Output) := do
  let target ← (s.plan.outputFor source.path s.root s.outputRoot).mapError .noTarget
  let task ← (s.plan.task s.root s.project asked source).mapError .noTarget
  let output ← task.run.mapError .unconverted
  .ok (target, output)

/-- What becomes of a file in a world, and the world after that. -/
def turn (path : Path) (w : World) : Except Failure Converted × World :=
  match Plan.readFile s.encoding s.tree path with
  | .error failure => (.error failure, w)
  | .ok source => s.plan.convertFile s.root s.outputRoot s.project w source

/-- The files, each with the world in which its turn comes. -/
def turns : List Path → World → List (Path × World)
  | [], _ => []
  | path :: rest, w => (path, w) :: turns rest (s.turn path w).2

/-- The world after the turns of some files. -/
def after (paths : List Path) (w : World) : World := paths.foldl (fun w path => (s.turn path w).2) w

def entry (t : Path × World) : FileResult := ⟨t.1, (s.turn t.1 t.2).1⟩

/-- A file is read, converted and written in its turn. -/
structure Converts (t : Path × World) (source : Plan.Source) (target : Path)
    (output : Conversion.Output) (tree : FileTree) : Prop where
  read : Plan.readFile s.encoding s.tree t.1 = .ok source
  produced : s.produce t.2.asked source = .ok (target, output)
  written : (s.plan.writeOutput target source output).run t.2.tree = (.ok (), tree)

/-- What a file is to give: where its output goes, the code and the diagnostics. -/
def generated (source : Plan.Source) (w : World) :
    Except Failure (Path × Text × List Conversion.Diagnostic) :=
  (s.produce w.asked source).map fun made => (made.1, made.2.written)

end Turn

variable {s : Session} {w : World} {t : Path × World} {source : Plan.Source}

/-- What the conversion of a file does: it makes no output, or it makes one and writes it or fails
to. -/
lemma convertFile_cases (s : Session) (w : World) (source : Plan.Source) :
    (∃ failure asked, s.produce w.asked source = .error failure ∧
      s.plan.convertFile s.root s.outputRoot s.project w source =
        (.error failure, { w with asked })) ∨
    ∃ target output result tree, s.produce w.asked source = .ok (target, output) ∧
      (s.plan.writeOutput target source output).run w.tree = (result, tree) ∧
      s.plan.convertFile s.root s.outputRoot s.project w source =
        ((result.map fun _ => { output := target, diagnostics := output.diagnostics.length }).mapError
          (.unwritable target), { tree, asked := output.asked }) := by
  rw [produce, Plan.convertFile]
  cases s.plan.outputFor source.path s.root s.outputRoot with
  | error e => exact .inl ⟨_, _, rfl, rfl⟩
  | ok target =>
    cases s.plan.task s.root s.project w.asked source with
    | error e => exact .inl ⟨_, _, rfl, rfl⟩
    | ok task =>
      dsimp only
      cases hrun : task.run with
      | error fault =>
        refine .inl ⟨.unconverted fault, _, ?_, rfl⟩
        change (task.run.mapError Failure.unconverted >>= _) = _
        rw [hrun]
        rfl
      | ok output =>
        dsimp only
        rcases hwrite : (s.plan.writeOutput target source output).run w.tree with ⟨result, tree⟩
        refine .inr ⟨target, output, result, tree, ?_, hwrite, ?_⟩
        · change (task.run.mapError Failure.unconverted >>= _) = _
          rw [hrun]
          rfl
        · cases result <;> rfl

lemma Converts.turn_eq (h : s.Converts t source target output tree) :
    s.turn t.1 t.2 = (.ok { output := target, diagnostics := output.diagnostics.length },
      { tree, asked := output.asked }) := by
  rw [turn, h.read]
  rcases s.convertFile_cases t.2 source with ⟨failure, _, hproduce, -⟩ |
    ⟨target', output', result, tree', hproduce, hwrite, hconvert⟩
  · cases h.produced.symm.trans hproduce
  · cases h.produced.symm.trans hproduce
    cases h.written.symm.trans hwrite
    exact hconvert

/-- **A file is recorded as converted exactly if it is converted.** -/
lemma isConverted_entry_iff :
    (s.entry t).isConverted = true ↔
      ∃ source target output tree, s.Converts t source target output tree := by
  constructor
  · intro h
    rw [entry, turn] at h
    cases hread : Plan.readFile s.encoding s.tree t.1 with
    | error failure =>
      rw [hread] at h
      cases h
    | ok source =>
      rw [hread] at h
      dsimp only at h
      rcases s.convertFile_cases t.2 source with ⟨failure, _, -, hconvert⟩ |
        ⟨target, output, result, tree, hproduce, hwrite, hconvert⟩
      · rw [hconvert] at h
        cases h
      · cases result with
        | error e =>
          rw [hconvert] at h
          cases h
        | ok written => exact ⟨source, target, output, tree, hread, hproduce, hwrite⟩
  · rintro ⟨source, target, output, tree, h⟩
    rw [entry, FileResult.isConverted, h.turn_eq]

lemma Converts.read_target (h : s.Converts t source target output tree) :
    tree.read target = .ok (Utf8.encode output.code) := by
  refine read_of_writeOutput ?_ h.written
  obtain ⟨target', htarget, hrest⟩ := exists_of_bind_eq_ok h.produced
  obtain ⟨task, -, hrest⟩ := exists_of_bind_eq_ok hrest
  obtain ⟨output', -, hpair⟩ := exists_of_bind_eq_ok hrest
  cases hpair
  exact name_ne_nil_of_outputFor (eq_ok_of_mapError htarget)

lemma Converts.generated_eq (h : s.Converts t source target output tree) :
    s.generated source t.2 = .ok (target, output.written) := by
  rw [generated, h.produced]
  rfl

lemma generated_of_task (htarget : s.plan.outputFor source.path s.root s.outputRoot = .ok target)
    (htask : s.plan.task s.root s.project w.asked source = .ok task) :
    s.generated source w =
      ((task.run.map Output.written).map (target, ·)).mapError .unconverted := by
  rw [generated, produce, htarget, htask]
  change ((task.run.mapError Failure.unconverted >>= fun output => .ok (target, output)).map _) = _
  cases task.run <;> rfl

lemma generated_of_stateless (hr : ∀ r ∈ s.plan.recognizer, r.Stateless) (source : Plan.Source)
    (w w' : World) : s.generated source w = s.generated source w' := by
  cases htarget : s.plan.outputFor source.path s.root s.outputRoot with
  | error e =>
    rw [generated, generated, produce, produce, htarget]
    rfl
  | ok target =>
    cases hfirst : s.plan.task s.root s.project [] source with
    | error e =>
      have htask : ∀ w : World, s.plan.task s.root s.project w.asked source = .error e := by
        intro w
        rw [task_eq, hfirst]
        rfl
      rw [generated, generated, produce, produce, htask w, htask w']
    | ok task =>
      have htask : ∀ w : World, s.plan.task s.root s.project w.asked source =
          .ok { task with asked := w.asked } := by
        intro w
        rw [task_eq, hfirst]
        rfl
      rw [← recognizer_of_task hfirst] at hr
      rw [generated_of_task htarget (htask w), generated_of_task htarget (htask w'),
        task.written_run hr w.asked, task.written_run hr w'.asked]

/-! ## All turns -/

lemma map_fst_turns (s : Session) (paths : List Path) (w : World) :
    (s.turns paths w).map Prod.fst = paths := by
  induction paths generalizing w with
  | nil => rfl
  | cons path rest ih => exact congrArg (path :: ·) (ih _)

lemma perm_results (s : Session) (paths : List Path) (w : World) :
    let read := Plan.readFiles s.encoding s.tree paths
    let converted := s.plan.convertFiles s.root s.outputRoot s.project read.1 w
    (read.2 ++ converted.1).Perm ((s.turns paths w).map s.entry) ∧ converted.2 = s.after paths w := by
  induction paths generalizing w with
  | nil => exact ⟨.nil, rfl⟩
  | cons path rest ih =>
    rw [turns, map_cons, after, foldl_cons]
    -- A file that was not read heads its own list; one that was read comes after all of these.
    cases hread : Plan.readFile s.encoding s.tree path with
    | error failure =>
      have hturn : s.turn path w = (.error failure, w) := by rw [turn, hread]
      rw [readFiles_cons_of_error hread, entry, hturn]
      obtain ⟨hperm, hafter⟩ := ih w
      exact ⟨hperm.cons _, hafter⟩
    | ok source =>
      have hturn : s.turn path w = s.plan.convertFile s.root s.outputRoot s.project w source := by
        rw [turn, hread]
      rw [readFiles_cons_of_ok hread, entry, hturn]
      dsimp only
      rw [Plan.convertFiles]
      obtain ⟨hperm, hafter⟩ := ih (s.plan.convertFile s.root s.outputRoot s.project w source).2
      rw [path_of_readFile hread]
      exact ⟨perm_middle.trans (hperm.cons _), hafter⟩

/-- The summary of the session, and the world after it. -/
def answer (s : Session) (input : Path) (paths : List Path) (w : World) : Summary × World :=
  let read := Plan.readFiles s.encoding s.tree paths
  let converted := s.plan.convertFiles s.root s.outputRoot s.project read.1 w
  ({ input, output := s.outputRoot, files := Plan.inOrder (read.2 ++ converted.1),
     projectClasses := (s.project.map (·.classes.length)).getD 0 }, converted.2)

end Session

/-! ## Coming to the conversion -/

namespace Plan

/-- Where the outputs of a batch go. -/
def outputRoot (plan : Plan) (tree : FileTree) (input : Path) : Option Path → Except Error Path
  | some p => .ok p
  | none => (plan.defaultOutput tree input).mapError .path

/-- Reads all files; without files no encoding is needed. -/
def readAll (plan : Plan) (tree : FileTree) (paths : List Path) :
    Except Error (List Source × List FileResult) :=
  if paths = [] then .ok ([], []) else (plan.encoding).map fun e => readFiles e tree paths

lemma readAll_eq_ok_iff {paths : List Path} {read : List Source × List FileResult} :
    plan.readAll tree paths = .ok read ↔
      ∃ e, (paths ≠ [] → plan.encoding = .ok e) ∧ read = readFiles e tree paths := by
  rw [readAll]
  split_ifs with hnil
  · constructor
    · rintro ⟨⟩
      exact ⟨.utf8, fun hne => absurd hnil hne, by rw [hnil]; rfl⟩
    · rintro ⟨e, -, rfl⟩
      rw [hnil]
      rfl
  · cases plan.encoding with
    | error e => simp [Except.map, hnil]
    | ok e => simp [Except.map, hnil, eq_comm]

lemma convertAll_eq (plan : Plan) (root outputRoot : Path) (paths : List Path) (w : World) :
    plan.convertAll root outputRoot paths w = (plan.readAll w.tree paths >>= fun read =>
      (plan.analyse root read.1).mapError .path >>= fun project =>
        let converted := plan.convertFiles root outputRoot project read.1 w
        .ok (inOrder (read.2 ++ converted.1), (project.map (·.classes.length)).getD 0, converted.2)) := by
  rw [convertAll, readAll]
  by_cases hnil : paths = []
  · rw [if_pos hnil, if_pos (isEmpty_iff.2 hnil)]
  · rw [if_neg hnil, if_neg (mt List.isEmpty_iff.1 hnil)]

lemma run_eq (plan : Plan) (input : Path) (output : Option Path) (w : World) :
    plan.run input output w = (plan.outputRoot w.tree input output >>= fun outputRoot =>
      plan.convertAll (if w.tree.isDirectory input then input else input.parent) outputRoot
        (plan.discover w.tree input) w >>= fun all =>
        .ok ({ input, output := outputRoot, files := all.1, projectClasses := all.2.1 }, all.2.2)) := by
  cases output <;> rfl

end Plan

/-- A batch comes to the conversion of its files: the output root, the encoding and the analysis of
the files that could be read are there. -/
structure Prepares (plan : Plan) (input : Path) (output : Option Path) (w : World) (s : Session) :
    Prop where
  samePlan : s.plan = plan
  sameTree : s.tree = w.tree
  root : s.root = if w.tree.isDirectory input then input else input.parent
  outputRoot : plan.outputRoot w.tree input output = .ok s.outputRoot
  encoding : plan.discover w.tree input ≠ [] → plan.encoding = .ok s.encoding
  project : plan.analyse s.root
    (Plan.readFiles s.encoding w.tree (plan.discover w.tree input)).1 = .ok s.project

/-- **A batch that comes to the conversion of its files has a summary**, and no other one has. -/
lemma run_eq_ok_iff {input : Path} {output : Option Path} {w : World} {answer : Summary × World} :
    plan.run input output w = .ok answer ↔
      ∃ s, Prepares plan input output w s ∧ answer = s.answer input (plan.discover w.tree input) w := by
  constructor
  · intro h
    rw [run_eq] at h
    obtain ⟨outputRoot, houtput, hrest⟩ := exists_of_bind_eq_ok h
    obtain ⟨all, hall, hanswer⟩ := exists_of_bind_eq_ok hrest
    rw [convertAll_eq] at hall
    obtain ⟨read, hread, hrest⟩ := exists_of_bind_eq_ok hall
    obtain ⟨project, hproject, hall⟩ := exists_of_bind_eq_ok hrest
    obtain ⟨e, hencoding, rfl⟩ := readAll_eq_ok_iff.1 hread
    cases hall
    cases hanswer
    exact ⟨⟨plan, w.tree, e, _, outputRoot, project⟩,
      ⟨rfl, rfl, rfl, houtput, hencoding, eq_ok_of_mapError hproject⟩, rfl⟩
  · rintro ⟨s, ⟨rfl, htree, hroot, houtput, hencoding, hproject⟩, rfl⟩
    have hread : s.plan.readAll w.tree (s.plan.discover w.tree input) = .ok _ :=
      readAll_eq_ok_iff.2 ⟨s.encoding, hencoding, rfl⟩
    have hanalysis : (s.plan.analyse s.root
        (Plan.readFiles s.encoding w.tree (s.plan.discover w.tree input)).1).mapError Error.path =
          .ok s.project := by
      rw [hproject]
      rfl
    have hall := s.plan.convertAll_eq s.root s.outputRoot (s.plan.discover w.tree input) w
    rw [bind_of_eq_ok hread, bind_of_eq_ok hanalysis] at hall
    rw [run_eq, bind_of_eq_ok houtput, ← hroot, bind_of_eq_ok hall, Session.answer, htree]

/-! ## The account -/

lemma converted_add_failed (summary : Summary) :
    summary.converted + summary.failed = summary.files.length := by
  have hfailed : (fun r : FileResult => !r.isConverted) = fun r => decide (¬ r.isConverted = true) := by
    funext r
    cases r.isConverted <;> rfl
  rw [Summary.failed, hfailed]
  exact (length_eq_countP_add_countP _).symm

/-- A file that is converted, one that is not in the encoding, and one whose output would take the
place of a directory. -/
def mixedTree : FileTree :=
  ⟨[(["in"], .directory), (["in", "A.java"], .file (Utf8.encode "class A \x7b\n\x7d\n")),
    (["in", "B.java"], .file [255]), (["in", "C.java"], .file (Utf8.encode "class C \x7b\n\x7d\n")),
    (["out"], .directory), (["out", "C.ts"], .directory)]⟩

/-- A session on these files. -/
def mixedSession : Session where
  plan := { settings := { useProjectContext := false } }
  tree := mixedTree
  encoding := .utf8
  root := .parse "in"
  outputRoot := .parse "out"
  project := none

lemma discover_mixedTree : mixedSession.plan.discover mixedTree (.parse "in") =
    [.parse "in/A.java", .parse "in/B.java", .parse "in/C.java"] := by
  have hfiles : mixedTree.filesBelow (.parse "in") =
      [.parse "in/A.java", .parse "in/B.java", .parse "in/C.java"] :=
    mergeSort_of_pairwise (by decide)
  rw [Plan.discover, hfiles]
  decide +kernel

end Restage.Batch
