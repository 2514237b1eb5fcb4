import Folio.Build.Sources

/-!
# Builds

A build copies the source directory, writes the book in the copy, compiles it there, and publishes
what comes of it: the PDF, or the whole copy if there is none. Nothing is published before the
compilation is over. A debugging copy, where one is wanted, is made whether the compilation fails
or not, and the working copy is removed at the end.
-/

namespace Folio

/-- Fresh directories for a build. -/
structure FreshPlaces where
  /-- For the working copy. -/
  scratch : Location
  /-- For what is kept of a failed compilation. -/
  kept : Location
  /-- For a debugging copy without a place of its own. -/
  debug : Location

/-- A build of a book. -/
structure Build where
  manuscript : Manuscript
  compiler : Compiler
  optimizer : Optimizer
  /-- Where the environment asks for a debugging copy: below the root of the project, or in a fresh
  directory if it names none. -/
  debugVariable : Option String
  places : FreshPlaces

/-- What a build has published. -/
structure Published where
  source : Option Location
  artifact : Option Location
  /-- The hand-written pages. -/
  expanded : List String

namespace Build

variable (b : Build)

/-- The configuration of the book. -/
def config : BuildConfig := b.manuscript.config

/-- The working copy of the source directory. -/
def copy : Location := b.places.scratch.child "build"

/-- Copies the source directory. -/
def copySource : Job BuildFault Unit := do
  unless ← Job.read .disk fun disk => disk.isDirectory b.config.sourceDir do
    throw (.missingSource b.config.sourceDir)
  Job.copyTree .disk b.config.sourceDir b.copy

/-- Where a debugging copy goes, if one is wanted. -/
def debugPlace? : Option Location :=
  b.config.debugDir <|> b.debugVariable.map fun path =>
    if path = "" then b.places.debug else b.config.projectRoot.below (.ofString path)

/-- Makes the debugging copy, if one is wanted. -/
def copyForDebugging : Job BuildFault Unit := do
  match b.debugPlace? with
  | none => return ()
  | some place =>
    Job.copyTree .disk b.copy place
    Job.notice (.debugCopy place.toString)

/-- Compiles the book, and makes the debugging copy whatever comes of it. -/
def compile (source : Location) : Job BuildFault (Option Location) := fun desk =>
  match Compile.book b.compiler b.optimizer b.places.kept b.config.compile source desk with
  | .ok artifact desk => (b.copyForDebugging *> pure artifact) desk
  | .error (.failed fault) desk => (b.copyForDebugging *> throw (.compilation fault)) desk
  | .error (.disk fault) desk => (b.copyForDebugging *> throw (.disk fault)) desk
  | .error (.interrupted kind) desk => (b.copyForDebugging *> throw (.interrupted kind)) desk

/-- Publishes the whole working copy. -/
def publishCopy (book : WrittenBook) : Job BuildFault Published := do
  Job.copyTree .disk b.copy b.config.buildDir
  return ⟨some (b.config.buildDir.child book.source.name), none, book.expanded⟩

/-- Publishes a PDF. -/
def publishArtifact (book : WrittenBook) (pdf : Location) : Job BuildFault Published := do
  Job.change .disk fun disk => disk.copyFile pdf b.config.buildDir
  return ⟨none, some (b.config.buildDir.child pdf.name), book.expanded⟩

/-- Publishes the artifact, or the whole working copy if there is none or none is wanted. -/
def publish (book : WrittenBook) (artifact : Option Location) : Job BuildFault Published := do
  Job.change .disk fun disk => disk.makeDirectory b.config.buildDir
  match artifact with
  | none => b.publishCopy book
  | some pdf =>
    if b.config.compile.backend = .none then b.publishCopy book else b.publishArtifact book pdf

/-- Writes the book in a working copy of the source directory. -/
def prepare : Job BuildFault WrittenBook := do
  b.copySource
  Job.notice (.converting b.config.pages.length)
  let book ← b.manuscript.writeAll b.copy
  Job.notice .converted
  return book

/-- Writes the book and compiles it. -/
def makeBook : Job BuildFault (WrittenBook × Option Location) := do
  let book ← b.prepare
  let artifact ← b.compile book.source
  return (book, artifact)

/-- The steps of the build. -/
def steps : Job BuildFault Published := do
  let (book, artifact) ← b.makeBook
  b.publish book artifact

/-- A desk without the working copy. -/
def cleared (desk : Desk) : Desk := { desk with disk := desk.disk.remove b.places.scratch }

/-- Builds the book. -/
def run : Job BuildFault Published := fun desk =>
  match b.steps desk with
  | .ok published desk => .ok published (b.cleared desk)
  | .error fault desk => .error fault (b.cleared desk)

end Build

end Folio
