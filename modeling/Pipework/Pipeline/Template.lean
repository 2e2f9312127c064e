import Pipework.Pipeline.Basic

/-!
# Starter pipelines

A job layout to begin with for the usual kinds of project.  On GitHub the tools come from actions;
on GitLab, which has no actions, they come from a container image.
-/

namespace Pipework

/-- The kinds of project there is a starter for. -/
inductive Template where
  | node
  | rust
  | python
  | docker
deriving Repr, DecidableEq, Inhabited

/-- A template name that is none. -/
structure UnknownTemplate where
  name : String
deriving Repr, DecidableEq

namespace Template

/-- The templates in the order of their listing. -/
def all : List Template := [node, rust, python, docker]

/-- The name of a template. -/
def name : Template → String
  | node => "node"
  | rust => "rust"
  | python => "python"
  | docker => "docker"

/-- What a template is for. -/
def description : Template → String
  | node => "Node.js project with npm install, test and build"
  | rust => "Rust crate with rustfmt, clippy and tests"
  | python => "Python project with pip and pytest"
  | docker => "Container image build and push"

/-- The template with a name, in any case and with blanks around it. -/
def ofName (text : String) : Except UnknownTemplate Template :=
  let wanted := String.ofList (Text.lowercase (Text.trim text.toList))
  match all.find? (·.name == wanted) with
  | some t => .ok t
  | none => .error ⟨text⟩

/-! ## The jobs -/

/-- The step that fetches the sources, which GitLab does by itself. -/
def checkout : Platform → List Step
  | .github => [.uses "Checkout" "actions/checkout@v4"]
  | .gitlab => []

/-- A job whose tools an action sets up on GitHub and an image holds on GitLab. -/
def toolJob (platform : Platform) (name : String) (setup : Step) (image : String)
    (steps : List Step) : Job :=
  let job := Job.named name
  match platform with
  | .github => { job with cache := true, steps := checkout platform ++ setup :: steps }
  | .gitlab => { job with cache := true, dockerImage := some image, steps }

/-- A project that installs, tests and builds with one package manager. -/
def nodeJob (platform : Platform) : Job :=
  toolJob platform "build"
    (.uses "Setup Node" "actions/setup-node@v4\nwith:\n  node-version: 22") "node:22"
    [.run "Install" "npm ci", .run "Test" "npm test", .run "Build" "npm run build"]

/-- A crate that is checked for its format, by a linter and by its tests. -/
def rustJob (platform : Platform) : Job :=
  let job := toolJob platform "check"
    (.uses "Setup Rust" "dtolnay/rust-toolchain@stable\nwith:\n  components: rustfmt, clippy")
    "rust:1.85"
    [.run "Format" "cargo fmt --all -- --check",
     .run "Clippy" "cargo clippy --all-targets -- -D warnings",
     .run "Test" "cargo test --workspace"]
  { job with envVars := [⟨"CARGO_TERM_COLOR", "always"⟩] }

/-- A project that installs its requirements and runs its tests. -/
def pythonJob (platform : Platform) : Job :=
  toolJob platform "test"
    (.uses "Setup Python" "actions/setup-python@v5\nwith:\n  python-version: \"3.12\"")
    "python:3.12"
    [.run "Install" "python -m pip install --upgrade pip\npip install -r requirements.txt",
     .run "Test" "pytest"]

/-- The script that publishes an image. -/
def pushScript : String :=
  "printf '%s' \"$REGISTRY_TOKEN\" | docker login --password-stdin\ndocker push app:latest"

/-- An image that is built and published; GitHub publishes it for tags only. -/
def dockerJob (platform : Platform) : Job :=
  let build := Step.run "Build image" "docker build -t app:latest ."
  let push := Step.run "Push image" pushScript
  match platform with
  | .github =>
    let push := { push with condition := some "startsWith(github.ref, 'refs/tags/')" }
    { Job.named "image" with steps := checkout platform ++ [build, push] }
  | .gitlab => { Job.named "image" with dockerImage := some "docker:27", steps := [build, push] }

/-- The starter of a template for a platform. -/
def build (template : Template) (platform : Platform) : Pipeline :=
  match template with
  | node => { platform, jobs := [nodeJob platform] }
  | rust => { platform, jobs := [rustJob platform] }
  | python => { platform, jobs := [pythonJob platform] }
  | docker =>
    { platform
      triggers := { tags := true }
      secrets := [⟨"REGISTRY_TOKEN", "Container registry push token"⟩]
      jobs := [dockerJob platform] }

end Template

/-- The report of an unknown template name. -/
def UnknownTemplate.message (e : UnknownTemplate) : String :=
  s!"Unknown template '{e.name}'. Available: " ++
    String.intercalate ", " (Template.all.map (·.name))

end Pipework
