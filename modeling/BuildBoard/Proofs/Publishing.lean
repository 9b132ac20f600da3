import BuildBoard.Program
import Mathlib.Logic.Function.Basic

/-!
# Publishing on a disk that may fail

Publishing is followed on a disk on which each step may fail, and on which a file that is being
written passes through any contents, the last of which stays when the write fails. Only a rename
happens at once. All moments are kept, so that what a reader sees at any time can be told.

Paths are taken as texts: a path that leads to the same file as another one by a link, or by a
component `..`, is not considered, nor is another program that writes to the directory.

Results:
1. `Keeps.perform`, `Keeps.run`: at no moment a step changes what is at a path that is not its own.
2. `run_of_pageDone`, `run_of_not_pageDone`: the page is replaced at once, or not at all.
3. `published_atomically`: what becomes of the page, of the picture and of the result, whichever
   steps fail.
-/

namespace BuildBoard

/-! ## Disks -/

/-- What is at each path. -/
abbrev Disk := String → Option Node

/-- How a step goes. -/
structure Course where
  /-- The fault that the step ends with, if it fails. -/
  fault : Option Fault
  /-- The directories that are made if they are above a directory that is to be made. -/
  made : String → Bool
  /-- What a file that is written holds from moment to moment before it holds what it should. -/
  partials : List Content

namespace Course

def result (course : Course) : Except Fault Unit :=
  match course.fault with
  | none => .ok ()
  | some fault => .error fault

/-- What a file holds from moment to moment when it is written. -/
def contents (course : Course) (c : Content) : List Content :=
  match course.fault with
  | none => course.partials ++ [c]
  | some _ => course.partials

end Course

namespace Disk

def put (d : Disk) (path : String) (c : Content) : Disk :=
  Function.update d path (some (.file c))

/-- The disk with some of the directories made that a path goes through. -/
def withDirs (d : Disk) (path : String) (made : String → Bool) : Disk := fun q =>
  if (d q).isNone && made q && q.toList.isPrefixOf path.toList then some .dir else d q

/-- The disk with what is at `source` moved to `target`. -/
def move (d : Disk) (source target : String) : Disk :=
  Function.update (Function.update d source none) target (d source)

end Disk

/-- A disk with its past. -/
structure World where
  now : Disk
  /-- What the disk was, from the last moment back. -/
  past : List Disk

namespace World

def moments (w : World) : List Disk := w.now :: w.past

def pass (w : World) (d : Disk) : World := ⟨d, w.moments⟩

/-- The world after a file has held these contents, one after the other. -/
def overwrite (path : String) (w : World) (contents : List Content) : World :=
  contents.foldl (fun w c => w.pass (w.now.put path c)) w

/-- A step that goes as its course says. Nothing can be renamed that is not there. -/
def perform (course : Step → Course) (step : Step) : StateM World (Except Fault Unit) := fun w =>
  match step with
  | .makeDirs path =>
    ((course step).result, w.pass (w.now.withDirs path (course step).made))
  | .write path c => ((course step).result, w.overwrite path ((course step).contents c))
  | .rename source target =>
    match (course step).fault, w.now source with
    | some fault, _ => (.error fault, w)
    | none, none => (.error .notFound, w)
    | none, some _ => (.ok (), w.pass (w.now.move source target))
  | .refuse => (.error (.other ""), w)

end World

/-- What is at the path may be changed by the step. -/
def Step.Touches (path : String) : Step → Prop
  | .makeDirs dir => path.toList <+: dir.toList
  | .write target _ => path = target
  | .rename source target => path = source ∨ path = target
  | .refuse => False

/-- From one world to a later one, what is at the path has been the same at every moment. -/
structure World.Keeps (path : String) (w w' : World) : Prop where
  now : w'.now path = w.now path
  moments : ∀ d ∈ w'.moments, d ∈ w.moments ∨ d path = w.now path

namespace Publisher

/-- The directory is made, the new page is written beside the old one, and it is renamed. -/
structure PageDone (p : Publisher) (course : Step → Course) (updated : String) (frame : Frame) :
    Prop where
  dirs : (course (.makeDirs p.outputDir)).fault = none
  sibling : (course (.write p.siblingPath (.text (frame.page p.style updated)))).fault = none
  replaced : (course (.rename p.siblingPath p.pagePath)).fault = none

/-- A picture is not asked for, there is no bar to be shown in it, or it is made and written. -/
def ImageDone (p : Publisher) (course : Step → Course) (frame : Frame) : Prop :=
  p.png = true → ∀ bar, barOf frame = some bar →
    imageWidth bar.width ≤ maxImageWidth ∧
      (course (.write p.imagePath (.image bar))).fault = none

/-- From one world to a later one, neither the page nor the picture has been touched. -/
structure Spares (p : Publisher) (w w' : World) : Prop where
  page : w.Keeps p.pagePath w'
  image : w.Keeps p.imagePath w'

end Publisher

/-! ## How steps end -/

namespace Course

theorem result_eq_ok {c : Course} : c.result = .ok () ↔ c.fault = none := by
  cases h : c.fault <;> simp [result, h]

theorem result_of_some {c : Course} {fault : Fault} (h : c.fault = some fault) :
    c.result = .error fault := by
  rw [result, h]

end Course

/-! ## What a step leaves as it is -/

variable {path : String} {w w' w'' : World} {course : Step → Course} {step : Step}

namespace World

theorem Keeps.refl (path : String) (w : World) : Keeps path w w := ⟨rfl, fun _ hd => .inl hd⟩

theorem Keeps.trans (h : Keeps path w w') (h' : Keeps path w' w'') : Keeps path w w'' where
  now := h'.now.trans h.now
  moments d hd := by
    rcases h'.moments d hd with hd | hd
    · exact h.moments d hd
    · exact .inr (hd.trans h.now)

theorem Keeps.pass {d : Disk} (h : d path = w.now path) : Keeps path w (w.pass d) where
  now := h
  moments d' hd' := by
    rcases List.mem_cons.1 hd' with rfl | hd'
    · exact .inr h
    · exact .inl hd'

/-- A world without a past has kept what it began with. -/
theorem Keeps.from_start {before : Disk} (h : Keeps path ⟨before, []⟩ w) :
    ∀ d ∈ w.moments, d path = before path := by
  intro d hd
  rcases h.moments d hd with hfirst | hsame
  · rw [List.mem_singleton.1 hfirst]
  · exact hsame

theorem Keeps.overwrite {target : String} (hpath : path ≠ target) (w : World)
    (contents : List Content) : Keeps path w (w.overwrite target contents) := by
  induction contents generalizing w with
  | nil => exact .refl path w
  | cons c contents ih =>
    have hput : w.now.put target c path = w.now path := Function.update_of_ne hpath _ _
    exact (Keeps.pass hput).trans (ih _)

theorem Keeps.perform (course : Step → Course) (h : ¬ step.Touches path) (w : World) :
    Keeps path w (World.perform course step w).2 := by
  cases step with
  | makeDirs dir =>
    refine Keeps.pass ?_
    rw [Disk.withDirs, if_neg]
    simp only [Bool.and_eq_true, List.isPrefixOf_iff_prefix]
    exact fun hmade => h hmade.2
  | write target c => exact Keeps.overwrite h w _
  | rename source target =>
    obtain ⟨hsource, htarget⟩ := not_or.1 h
    simp only [World.perform]
    split
    · exact .refl path w
    · exact .refl path w
    · refine Keeps.pass ?_
      rw [Disk.move, Function.update_of_ne htarget, Function.update_of_ne hsource]
  | refuse => exact .refl path w

/-! ## Running a plan -/

theorem run_cons_of_ok {message : String} {plan : Plan}
    (h : (World.perform course step w).1 = .ok ()) :
    Plan.run (World.perform course) ((step, message) :: plan) w =
      Plan.run (World.perform course) plan (World.perform course step w).2 := by
  have hrun : (World.perform course step).run w = (.ok (), (World.perform course step w).2) :=
    Prod.ext h rfl
  change (Plan.run (World.perform course) ((step, message) :: plan)).run w = _
  rw [Plan.run, StateT.run_bind, hrun]
  rfl

theorem run_cons_of_error {message : String} {plan : Plan} {fault : Fault}
    (h : (World.perform course step w).1 = .error fault) :
    Plan.run (World.perform course) ((step, message) :: plan) w =
      (.error message, (World.perform course step w).2) := by
  have hrun : (World.perform course step).run w =
      (.error fault, (World.perform course step w).2) := Prod.ext h rfl
  change (Plan.run (World.perform course) ((step, message) :: plan)).run w = _
  rw [Plan.run, StateT.run_bind, hrun]
  rfl

theorem Keeps.run (course : Step → Course) {plan : Plan}
    (h : ∀ step ∈ plan, ¬ step.1.Touches path) (w : World) :
    Keeps path w (Plan.run (World.perform course) plan w).2 := by
  induction plan generalizing w with
  | nil => exact .refl path w
  | cons first plan ih =>
    obtain ⟨hfirst, hplan⟩ := List.forall_mem_cons.1 h
    have hstep := Keeps.perform course hfirst w
    cases hresult : (World.perform course first.1 w).1 with
    | ok =>
      rw [run_cons_of_ok hresult]
      exact hstep.trans (ih hplan _)
    | error fault => rwa [run_cons_of_error hresult]

/-! ## How single steps end -/

theorem perform_makeDirs_ok_iff {dir : String} :
    (World.perform course (.makeDirs dir) w).1 = .ok () ↔ (course (.makeDirs dir)).fault = none :=
  Course.result_eq_ok

theorem perform_write_ok_iff {target : String} {c : Content} :
    (World.perform course (.write target c) w).1 = .ok () ↔
      (course (.write target c)).fault = none :=
  Course.result_eq_ok

theorem now_overwrite_snoc (target : String) (w : World) (contents : List Content) (c : Content) :
    (w.overwrite target (contents ++ [c])).now target = some (.file c) := by
  rw [overwrite, List.foldl_append]
  exact Function.update_self ..

/-- A file that has been written without a fault holds what it should. -/
theorem now_perform_write {target : String} {c : Content}
    (h : (course (.write target c)).fault = none) (w : World) :
    (World.perform course (.write target c) w).2.now target = some (.file c) := by
  simp only [World.perform, Course.contents, h]
  exact now_overwrite_snoc ..

/-- A rename without a fault moves what is there, at once. -/
theorem perform_rename {source target : String} {node : Node}
    (h : (course (.rename source target)).fault = none) (hnode : w.now source = some node) :
    World.perform course (.rename source target) w =
      (.ok (), w.pass (w.now.move source target)) := by
  simp [World.perform, h, hnode]

theorem perform_rename_of_fault {source target : String} {fault : Fault}
    (h : (course (.rename source target)).fault = some fault) (w : World) :
    World.perform course (.rename source target) w = (.error fault, w) := by
  simp [World.perform, h]

end World

/-! ## The paths of a publisher -/

/-- What a relative name is put behind. -/
def Path.base (dir : String) : String :=
  if dir.isEmpty || endsWithSlash dir then dir else dir ++ "/"

theorem Path.join_eq_append {name : String} (h : isAbsolute name = false) (dir : String) :
    join dir name = base dir ++ name := by
  rw [join, base, h, Bool.false_or]
  by_cases hempty : dir.isEmpty
  · rw [if_pos hempty, hempty, Bool.true_or, if_pos rfl, String.isEmpty_iff.1 hempty,
      String.empty_append]
  · rw [if_neg hempty, Bool.eq_false_iff.2 hempty, Bool.false_or]
    split <;> rfl

namespace Publisher

variable {updated : String} {frame : Frame}

theorem paths_eq (p : Publisher) :
    p.pagePath = Path.base p.outputDir ++ "index.html" ∧
      p.siblingPath = Path.base p.outputDir ++ "index.html.tmp" ∧
      p.imagePath = Path.base p.outputDir ++ "progress.png" :=
  ⟨Path.join_eq_append (by decide +kernel) _, Path.join_eq_append (by decide +kernel) _,
    Path.join_eq_append (by decide +kernel) _⟩

theorem paths_ne (p : Publisher) :
    p.pagePath ≠ p.siblingPath ∧ p.pagePath ≠ p.imagePath ∧ p.imagePath ≠ p.siblingPath := by
  obtain ⟨hpage, hsibling, himage⟩ := p.paths_eq
  rw [hpage, hsibling, himage]
  simp [String.append_right_inj]

theorem not_prefix_outputDir (p : Publisher) {name : String} (hname : name ≠ "") :
    ¬ (Path.base p.outputDir ++ name).toList <+: p.outputDir.toList := by
  intro h
  have hlength := h.length_le
  have hname : 0 < name.toList.length := by
    rwa [List.length_pos_iff, ne_eq, String.toList_eq_nil_iff]
  have hbase : p.outputDir.toList.length ≤ (Path.base p.outputDir).toList.length := by
    rw [Path.base]
    split
    · exact Nat.le_refl _
    · simp
  simp only [String.toList_append, List.length_append] at hlength
  omega

/-! ## What a publisher leaves as it is -/

theorem Spares.trans {p : Publisher} (h : p.Spares w w') (h' : p.Spares w' w'') : p.Spares w w'' :=
  ⟨h.page.trans h'.page, h.image.trans h'.image⟩

theorem spares_makeDirs (p : Publisher) (course : Step → Course) (w : World) :
    p.Spares w (World.perform course (.makeDirs p.outputDir) w).2 := by
  have houtside {name : String} (hname : name ≠ "") :
      ¬ (Step.makeDirs p.outputDir).Touches (Path.base p.outputDir ++ name) :=
    p.not_prefix_outputDir hname
  constructor
  · rw [p.paths_eq.1]
    exact .perform course (houtside (by simp)) w
  · rw [p.paths_eq.2.2]
    exact .perform course (houtside (by simp)) w

theorem spares_write_sibling (p : Publisher) (course : Step → Course) (c : Content) (w : World) :
    p.Spares w (World.perform course (.write p.siblingPath c) w).2 := by
  have hpage : ¬ (Step.write p.siblingPath c).Touches p.pagePath := p.paths_ne.1
  have himage : ¬ (Step.write p.siblingPath c).Touches p.imagePath := p.paths_ne.2.2
  exact ⟨.perform course hpage w, .perform course himage w⟩

theorem rename_keeps_image (p : Publisher) (course : Step → Course) (w : World) :
    w.Keeps p.imagePath (World.perform course (.rename p.siblingPath p.pagePath) w).2 := by
  have himage : ¬ (Step.rename p.siblingPath p.pagePath).Touches p.imagePath :=
    not_or.2 ⟨p.paths_ne.2.2, p.paths_ne.2.1.symm⟩
  exact .perform course himage w

theorem imagePlan_keeps_page (p : Publisher) (course : Step → Course) (frame : Frame) (w : World) :
    w.Keeps p.pagePath (Plan.run (World.perform course) (p.imagePlan frame) w).2 := by
  refine .run course ?_ w
  unfold imagePlan
  split
  · split
    · split <;> simp [Step.Touches, p.paths_ne.2.1]
    · simp
  · simp

/-! ## The page -/

/-- Where the page is done, the other steps begin after the moment in which it has been replaced.
Before that moment it was there as it had been. -/
theorem run_of_pageDone {p : Publisher} (h : p.PageDone course updated frame) (rest : Plan)
    (w : World) :
    ∃ w' d, w.Keeps p.pagePath w' ∧
      d p.pagePath = some (.file (.text (frame.page p.style updated))) ∧
      w.Keeps p.imagePath (w'.pass d) ∧
      Plan.run (World.perform course) (p.pagePlan updated frame ++ rest) w =
        Plan.run (World.perform course) rest (w'.pass d) := by
  let page : Content := .text (frame.page p.style updated)
  let w₁ := (World.perform course (.makeDirs p.outputDir) w).2
  let w₂ := (World.perform course (.write p.siblingPath page) w₁).2
  have hspares : p.Spares w w₂ :=
    (p.spares_makeDirs course w).trans (p.spares_write_sibling course page w₁)
  have hsibling : w₂.now p.siblingPath = some (.file page) := World.now_perform_write h.sibling w₁
  have hlast := World.perform_rename h.replaced hsibling
  refine ⟨w₂, w₂.now.move p.siblingPath p.pagePath, hspares.page, ?_, ?_, ?_⟩
  · rw [Disk.move, Function.update_self, hsibling]
  · have hkeeps := p.rename_keeps_image course w₂
    rw [hlast] at hkeeps
    exact hspares.image.trans hkeeps
  · rw [pagePlan, List.cons_append, World.run_cons_of_ok (World.perform_makeDirs_ok_iff.2 h.dirs),
      List.cons_append, World.run_cons_of_ok (World.perform_write_ok_iff.2 h.sibling),
      List.cons_append, World.run_cons_of_ok (by rw [hlast]), hlast, List.nil_append]

/-- Where a step for the page fails, neither the page nor the picture is touched. -/
theorem run_of_not_pageDone {p : Publisher} (h : ¬ p.PageDone course updated frame) (rest : Plan)
    (w : World) :
    ∃ message w', p.Spares w w' ∧
      Plan.run (World.perform course) (p.pagePlan updated frame ++ rest) w =
        (.error message, w') := by
  let page : Content := .text (frame.page p.style updated)
  let w₁ := (World.perform course (.makeDirs p.outputDir) w).2
  let w₂ := (World.perform course (.write p.siblingPath page) w₁).2
  have hspares₁ : p.Spares w w₁ := p.spares_makeDirs course w
  have hspares₂ : p.Spares w w₂ := hspares₁.trans (p.spares_write_sibling course page w₁)
  rw [pagePlan, List.cons_append]
  cases hdirs : (course (.makeDirs p.outputDir)).fault with
  | some fault =>
    exact ⟨_, w₁, hspares₁, World.run_cons_of_error (Course.result_of_some hdirs)⟩
  | none =>
    rw [World.run_cons_of_ok (World.perform_makeDirs_ok_iff.2 hdirs), List.cons_append]
    cases hwrite : (course (.write p.siblingPath page)).fault with
    | some fault =>
      exact ⟨_, w₂, hspares₂, World.run_cons_of_error (Course.result_of_some hwrite)⟩
    | none =>
      rw [World.run_cons_of_ok (World.perform_write_ok_iff.2 hwrite), List.cons_append]
      cases hrename : (course (.rename p.siblingPath p.pagePath)).fault with
      | some fault =>
        have hlast := World.perform_rename_of_fault hrename
        rw [World.run_cons_of_error (by rw [hlast]), hlast]
        exact ⟨_, w₂, hspares₂, rfl⟩
      | none => exact absurd ⟨hdirs, hwrite, hrename⟩ h

/-! ## The picture -/

theorem run_singleton_ok_iff {step : Step} {message : String} {w : World} :
    (Plan.run (World.perform course) [(step, message)] w).1 = .ok () ↔
      (World.perform course step w).1 = .ok () := by
  cases h : (World.perform course step w).1 with
  | ok => rw [World.run_cons_of_ok h]; exact iff_of_true rfl rfl
  | error fault => rw [World.run_cons_of_error h]; simp

theorem run_imagePlan_ok_iff (p : Publisher) (frame : Frame) (w : World) :
    (Plan.run (World.perform course) (p.imagePlan frame) w).1 = .ok () ↔
      p.ImageDone course frame := by
  have hnil : (Plan.run (World.perform course) [] w).1 = .ok () := rfl
  rw [imagePlan, ImageDone]
  by_cases hpng : p.png
  · rw [if_pos hpng]
    cases hbar : barOf frame with
    | none => simp [hnil]
    | some bar =>
      by_cases hwidth : imageWidth bar.width ≤ maxImageWidth
      · simp [hpng, hwidth, run_singleton_ok_iff, World.perform_write_ok_iff]
      · simp [hpng, hwidth, run_singleton_ok_iff, World.perform]
  · simp [hpng, hnil]

end Publisher

/-! ## Main result -/

/-- A frame is published on a disk that holds anything, with any steps failing. At every moment the
page is the one that was there or the new one, and the new one in the end if and only if the
directory is made, the new page is written beside the old one, and it is renamed. Publishing
succeeds if and only if the picture is done besides. If the page is not replaced, the picture is
not touched. -/
theorem published_atomically (host : Host (StateM World)) (course : Step → Course)
    (p : Publisher) (updated : String) (frame : Frame) (before : Disk) :
    let published := Program.publish
      { host with perform := World.perform course, stamp := pure updated } p frame ⟨before, []⟩
    let page : Option Node := some (.file (.text (frame.page p.style updated)))
    let done := p.PageDone course updated frame
    (∀ d ∈ published.2.moments, d p.pagePath = before p.pagePath ∨ d p.pagePath = page) ∧
    (done → published.2.now p.pagePath = page) ∧
    (¬ done → published.2.now p.pagePath = before p.pagePath) ∧
    (published.1 = .ok () ↔ done ∧ p.ImageDone course frame) ∧
    (¬ done → ∀ d ∈ published.2.moments, d p.imagePath = before p.imagePath) := by
  intro published page done
  have hpublished : published = Plan.run (World.perform course)
      (p.pagePlan updated frame ++ p.imagePlan frame) ⟨before, []⟩ := rfl
  by_cases h : done
  · obtain ⟨w, d, hpage, hd, -, hrun⟩ :=
      Publisher.run_of_pageDone h (p.imagePlan frame) ⟨before, []⟩
    have hkeeps := p.imagePlan_keeps_page course frame (w.pass d)
    rw [← hrun, ← hpublished] at hkeeps
    refine ⟨fun d' hd' => ?_, fun _ => hkeeps.now.trans hd, absurd h, ?_, absurd h⟩
    · rcases hkeeps.moments d' hd' with hreplaced | hlater
      · rcases List.mem_cons.1 hreplaced with rfl | hearlier
        · exact .inr hd
        · exact .inl (hpage.from_start d' hearlier)
      · exact .inr (hlater.trans hd)
    · rw [hpublished, hrun, Publisher.run_imagePlan_ok_iff]
      exact (and_iff_right h).symm
  · obtain ⟨message, w, ⟨hpage, himage⟩, hrun⟩ :=
      Publisher.run_of_not_pageDone h (p.imagePlan frame) ⟨before, []⟩
    rw [hpublished, hrun]
    exact ⟨fun d hd => .inl (hpage.from_start d hd), fun hdone => absurd hdone h,
      fun _ => hpage.now, by simp [h], fun _ => himage.from_start⟩

end BuildBoard
