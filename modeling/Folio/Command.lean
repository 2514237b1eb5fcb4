import Folio.Build
import Folio.Command.Arguments

/-!
# Commands

The command line. `build` builds the book that a configuration describes and says what was written.
`preprocess` expands a single hand-written page by itself, to the standard output or into a file.
-/

namespace Folio

/-- Where commands are given. -/
structure Console where
  /-- The working directory. -/
  place : Location
  /-- The values of the variables of the environment. -/
  environment : String → Option String
  /-- The highlighter that code blocks are meant for. -/
  lexers : Language.Lexers
  /-- Who fills the template of the preamble. -/
  engine : TemplateEngine
  lookup : Lookup
  evaluator : Evaluator
  /-- The reader of Markdown; not every text has a syntax tree. -/
  markdown : String → Option (List Markdown.Element)
  machine : Machine
  today : Date
  places : FreshPlaces

/-- Why a command fails. -/
inductive CommandFault
  | usage (fault : UsageFault)
  | config (fault : ConfigFault)
  | build (fault : BuildFault)

/-- The wording of a fault; some have none. -/
def CommandFault.message? : CommandFault → Option String
  | usage fault => some fault.message
  | config fault => fault.message?
  | build fault => fault.message?

/-- What the `build` command is told. -/
structure BuildOptions where
  /-- The configuration file. -/
  config : Location
  /-- The backend, in place of the one of the configuration. -/
  backend : Option String
  /-- The build directory, in place of the one of the configuration. -/
  outputDir : Option Location
  /-- Whether the compiler may write to the terminal. -/
  verbose : Bool

/-- What the `preprocess` command is told. -/
structure ExpandOptions where
  /-- The hand-written page. -/
  source : Location
  /-- The file to write, if not the standard output. -/
  output : Option Location

/-- A command. -/
inductive Command
  | build (options : BuildOptions)
  | expand (options : ExpandOptions)

namespace Command

/-- The configuration file where none is given. -/
def defaultConfig : String := "typst-pages.yaml"

/-- The options of the `build` command. -/
def buildNames : OptionNames := ⟨["config", "backend", "output-dir"], ["verbose"]⟩

/-- The options of the `preprocess` command. -/
def expandNames : OptionNames := ⟨["source", "output"], ["verbose"]⟩

/-- The `build` command with its arguments. -/
def buildOf (environment : String → Option String) (arguments : List String) :
    Except UsageFault Command := do
  let a ← Arguments.empty.sort buildNames arguments
  match a.others with
  | value :: _ => .error (.unusedArgument value)
  | [] => .ok (.build
      { config := .ofString ((a.option? environment "config").getD defaultConfig)
        backend := a.option? environment "backend"
        outputDir := (a.option? environment "output-dir").map Location.ofString
        verbose := a.switch environment "verbose" })

/-- The `preprocess` command with its arguments. -/
def expandOf (environment : String → Option String) (arguments : List String) :
    Except UsageFault Command := do
  let a ← Arguments.empty.sort expandNames arguments
  let output := (a.option? environment "output").map Location.ofString
  match a.options.get? "source", a.others with
  | some source, [] => .ok (.expand ⟨.ofString source, output⟩)
  | none, [source] => .ok (.expand ⟨.ofString source, output⟩)
  | some _, value :: _ => .error (.unusedArgument value)
  | none, _ :: value :: _ => .error (.unusedArgument value)
  | none, [] =>
    match environment (variableOf "source") with
    | some source => .ok (.expand ⟨.ofString source, output⟩)
    | none => .error (.missingArgument "SOURCE")

/-- The command that arguments give. -/
def ofArguments (environment : String → Option String) :
    List String → Except UsageFault Command
  | "build" :: arguments => buildOf environment arguments
  | "preprocess" :: arguments => expandOf environment arguments
  | name :: _ => .error (.unknownCommand name)
  | [] => .error .noCommand

end Command

namespace Console

/-- The variables of the environment that matter to commands. -/
def variableNames : List String :=
  ["config", "backend", "output-dir", "verbose", "source", "output", "version", "debug"].map
    variableOf

variable (c : Console)

/-- A location as it is shown: relative to the working directory if it is below. -/
def shown (l : Location) : String :=
  match c.place.from? l with
  | some names => Location.toString ⟨"", names⟩
  | none => l.toString

/-- The line that says what was written. -/
def wrote (l : Location) : String := "wrote " ++ c.shown l ++ "\n"

/-- The text of a file that is given by a location; a fault names it as it is given. -/
def textOf (l : Location) : Job CommandFault String :=
  Job.read (fun f => .build (.disk { f with place := l })) fun disk =>
    disk.readText (c.place.below l)

/-- The configuration in a file. -/
def loadConfig (file : Location) : Job CommandFault BuildConfig := do
  let place := c.place.below file
  match ← Job.read (fun f => .build (.disk f)) fun disk => disk.look place with
  | none => throw (.config (.missingFile file.toString))
  | some _ =>
    let text ← c.textOf file
    let found ← Job.read (fun f => .build (.disk f)) fun disk => disk.find place
    match BuildConfig.ofText found.parent (c.environment (variableOf "version")) text with
    | .ok config => return config
    | .error fault => throw (.config fault)

/-- A configuration with what a command says in its place. -/
def overridden (options : BuildOptions) (config : BuildConfig) :
    Except ConfigFault BuildConfig := do
  let config ← match options.backend with
    | some name => (Backend.ofName name).map fun backend =>
        { config with compile := { config.compile with backend } }
    | none => .ok config
  .ok (match options.outputDir with
    | some directory => { config with buildDir := c.place.below directory }
    | none => config)

/-- The build of a book. -/
def buildOf (config : BuildConfig) (verbose : Bool) : Build where
  manuscript :=
    { config, template := Style.template, engine := c.engine, lexers := c.lexers
      lookup := c.lookup, evaluator := c.evaluator, markdown := c.markdown, today := c.today }
  compiler := .ofBackend c.machine verbose config.compile.backend
  optimizer := Optimizer.external c.machine verbose none
  debugVariable := c.environment (variableOf "debug")
  places := c.places

/-- A job of a build as one of a command. -/
def asBuild (job : Job BuildFault α) : Job CommandFault α := fun desk =>
  match job desk with
  | .ok a desk => .ok a desk
  | .error fault desk => .error (.build fault) desk

/-- Builds a book; the answer is what is printed. -/
def build (options : BuildOptions) : Job CommandFault String := do
  match c.overridden options (← c.loadConfig options.config) with
  | .error fault => throw (.config fault)
  | .ok config =>
    let published ← asBuild (c.buildOf config options.verbose).run
    return String.join ((published.artifact.toList ++ published.source.toList).map c.wrote)

/-- How a single page is expanded: by itself, without other pages. -/
def expander : Expander where
  renderer := { labels := .ofPages "" false [], lexers := c.lexers, assets := none }
  lookup := c.lookup
  evaluator := c.evaluator
  language := Manuscript.exampleLanguage

/-- Writes a file, in a directory that is made if need be. -/
def writeFile (l : Location) (text : String) : Job CommandFault Unit := do
  Job.change (fun f => .build (.disk f)) fun disk => disk.withFile (c.place.below l) (.text text)

/-- Expands a hand-written page; the answer is what is printed. -/
def expand (options : ExpandOptions) : Job CommandFault String := do
  let text ← c.textOf options.source
  let e := c.expander.expand options.source.name text
  Job.notices e.draft.notices
  modify fun desk =>
    { desk with lookups := desk.lookups ++ e.lookups, evaluated := desk.evaluated ++ e.evaluated }
  match e.draft.fault, options.output with
  | some fault, _ => throw (.build (.page fault))
  | none, none => return e.draft.text
  | none, some output =>
    c.writeFile output e.draft.text
    return c.wrote (c.place.below output)

/-- Carries out a command; the answer is what is printed. -/
def carryOut : Command → Job CommandFault String
  | .build options => c.build options
  | .expand options => c.expand options

/-- Carries out the command that arguments give; the answer is what is printed. -/
def run (arguments : List String) : Job CommandFault String :=
  match Command.ofArguments c.environment arguments with
  | .ok command => c.carryOut command
  | .error fault => throw (.usage fault)

end Console

end Folio
