import TrustTrial.Call

/-!
# TrustTrial.Trial

The scenarios as they run against a client. They drive it from two identities, a primary one that
lasts for the whole trial and a secondary one that is fresh for every scenario, and check that both
see the same signed state. The first failure ends the trial; temporary entries are removed on every
way out.
-/

namespace TrustTrial

/-- The target of the basic scenario. -/
def basicTarget : String := "basic_repo_test"

/-- The target that is added after a root rotation. -/
def rotationTarget : String := "root_rotation_test_targets_add"

/-- What the client wants to hear before it rotates the root key. -/
def rotationConfirmation : String := "yes"

/-- What a trial works with: how the client is called, the repository, and the primary
identity. -/
structure Site where
  runner : Runner
  repo : String
  primary : TrustDir

/-- What a scenario gets for itself: a file with the scenario's name as its content, and the
secondary identity. -/
structure Stand where
  payload : String
  secondary : TrustDir

namespace Trial

variable {σ : Type}

/-! ## Steps that scenarios share -/

def announce (m : Machine σ) (title : String) : Trial σ Unit :=
  say ("\n" ++ Text.paint m.colored .cyan ("---- " ++ title ++ " ----"))

def enter (stage : Stage) : Trial σ Unit := note (.entered stage)

def publish (m : Machine σ) (site : Site) (d : TrustDir) : Trial σ Unit := do
  let _ ← invoke m site.runner (d.invocation ["publish", site.repo])
  pure ()

def add (m : Machine σ) (site : Site) (stand : Stand) (target : String) : Trial σ Unit := do
  let args := ["add", site.repo, target, stand.payload]
  let _ ← invoke m site.runner (site.primary.invocation args)
  pure ()

/-- The target table as an identity sees it; its copies of metadata are refreshed by this. -/
def listTargets (m : Machine σ) (site : Site) (d : TrustDir) : Trial σ String :=
  invoke m site.runner (d.invocation ["list", site.repo])

def listKeys (m : Machine σ) (site : Site) (d : TrustDir) : Trial σ (List KeyRow) := do
  let output ← invoke m site.runner (d.invocation ["key", "list"])
  pure (KeyListing.read output)

/-- The target table, which has to be the same text for both identities. -/
def agreedListing (first second : String) : Except Failure (List TargetRow) :=
  if first ≠ second then .error (.violated (.unequalListings first second))
  else .ok (TargetListing.read first)

/-- The target tables of the primary and the secondary identity. -/
def listBoth (m : Machine σ) (site : Site) (stand : Stand) : Trial σ (String × String) := do
  let first ← listTargets m site site.primary
  let second ← listTargets m site stand.secondary
  pure (first, second)

/-- The root document that an identity keeps. -/
def loadRoot (m : Machine σ) (site : Site) (d : TrustDir) : Trial σ RootDocument := do
  let document ← look (fun disk => RootDocument.load disk m.here d.path site.repo)
  note (.loaded document)
  pure document

/-! ## Scenarios -/

/-- Initializes the repository, publishes a target and reads it back. -/
def basicRepo (m : Machine σ) (site : Site) (stand : Stand) : Trial σ Unit := do
  announce m "Initializing a repo, adding a target, and pushing"
  let _ ← invoke m site.runner (site.primary.invocation ["init", site.repo])
  add m site stand basicTarget
  publish m site site.primary
  announce m "Listing and validating basic repo test targets"
  let (first, second) ← listBoth m site stand
  let rows ← ofExcept (agreedListing first second)
  if TargetListing.hasName basicTarget rows then
    let args := ["verify", site.repo, basicTarget, "-i", stand.payload, "-q"]
    let _ ← invoke m site.runner (site.primary.invocation args).withoutCredentials
    pure ()
  else throw (.violated (.missingTarget basicTarget (TargetListing.lineSet rows)))

/-- The only new root row of a key table. -/
def newRootRow (history : RootHistory) (rows : List KeyRow) : Except Failure String :=
  match (KeyListing.newRootRows history.rows rows).map KeyRow.line with
  | [line] => .ok line
  | found => .error (.violated (.newRootRows found))

/-- Rotates the root key and checks the result from the secondary identity. The history has to hold
the current root rows and key; it comes back with the new ones. -/
def rotateRoot (m : Machine σ) (site : Site) (stand : Stand) (history : RootHistory)
    (before : RootState) : Trial σ RootHistory := do
  enter .rootRotationRequested
  announce m "Rotating root key"
  let request := site.primary.invocation ["key", "rotate", site.repo, "root"]
  let _ ← invoke m site.runner (request.withPayload rotationConfirmation)
  enter .rootRotationConfirmed
  enter .metadataReloaded
  let rows ← listKeys m site site.primary
  let row ← inStage .metadataReloaded (newRootRow history rows)
  enter .verified
  let _ ← listTargets m site stand.secondary
  let after ← loadRoot m site stand.secondary
  let state ← inStage .verified (RootState.rotated before after history.keys)
  note (.rotated before state row)
  pure ((history.addRows [row]).addKey state.rootKey)

/-- Rotates the snapshot key and then the root key, and publishes from both identities. -/
def rootRotation (m : Machine σ) (site : Site) (stand : Stand) (history : RootHistory) :
    Trial σ RootHistory := do
  enter .start
  let request := site.primary.invocation ["key", "rotate", site.repo, "snapshot", "-r"]
  let _ ← invoke m site.runner request
  enter .keysEnumerated
  announce m "Figuring out what the old keys are"
  let _ ← listTargets m site stand.secondary
  let rows ← listKeys m site site.primary
  let row ← inStage .keysEnumerated (KeyListing.singleRoot rows)
  let document ← loadRoot m site stand.secondary
  let before ← inStage .keysEnumerated (RootState.capture document)
  let history ← rotateRoot m site stand ((history.addRows [row.line]).addKey before.rootKey) before
  enter .continuation
  announce m "Ensuring we can still publish"
  publish m site stand.secondary
  add m site stand rotationTarget
  publish m site site.primary
  let (first, second) ← listBoth m site stand
  let targets ← inStage .continuation (agreedListing first second)
  let found := TargetListing.count rotationTarget targetsRole targets
  if found = 1 then pure history
  else
    throw (.violated (.during .continuation
      (.targetCount rotationTarget targetsRole found (TargetListing.lineSet targets))))

/-- Rotates the root key once more, on top of earlier rotations. -/
def rootRerotation (m : Machine σ) (site : Site) (stand : Stand) (history : RootHistory) :
    Trial σ RootHistory := do
  enter .keysEnumerated
  announce m "Recording the current root keys"
  let _ ← listTargets m site stand.secondary
  let rows ← listKeys m site site.primary
  let lines := (KeyListing.rootRows rows).map KeyRow.line
  if lines.isEmpty then throw (.violated (.during .keysEnumerated .noRootRow))
  else
    let document ← loadRoot m site stand.secondary
    let before ← inStage .keysEnumerated (RootState.capture document)
    let history ← rotateRoot m site stand ((history.addRows lines).addKey before.rootKey) before
    enter .continuation
    announce m "Ensuring both clients still publish and agree"
    publish m site stand.secondary
    publish m site site.primary
    let (first, second) ← listBoth m site stand
    let targets ← inStage .continuation (agreedListing first second)
    if TargetListing.hasName basicTarget targets then pure history
    else
      throw (.violated (.during .continuation
        (.missingAfterRotation basicTarget (TargetListing.lineSet targets))))

/-- What a scenario does between its set-up and its clean-up. -/
def body (m : Machine σ) (site : Site) (stand : Stand) (history : RootHistory) :
    Scenario → Trial σ RootHistory
  | .basicRepo => do
    basicRepo m site stand
    pure history
  | .rootRotation => rootRotation m site stand history
  | .rootRerotation => rootRerotation m site stand history

/-! ## Runs -/

/-- The payload and the secondary identity of a scenario. -/
def setUp (m : Machine σ) (scenario : Scenario) : Trial σ Stand := do
  let payload ← writePayload m scenario.name
  match ← attempt (TrustDir.secondary m) with
  | .error failure =>
    let _ ← attempt (removePayload m payload)
    throw failure
  | .ok secondary => pure ⟨payload, secondary⟩

/-- Removes what `setUp` made; both removals are tried, and the first failure counts. -/
def cleanUp (m : Machine σ) (stand : Stand) : Trial σ Unit := do
  let payloadGone ← attempt (removePayload m stand.payload)
  let secondaryGone ← attempt (stand.secondary.remove m)
  ofExcept payloadGone
  ofExcept secondaryGone

/-- One scenario with its set-up and clean-up. A failure of the body counts before one of the
clean-up. -/
def runScenario (m : Machine σ) (site : Site) (history : RootHistory) (scenario : Scenario) :
    Trial σ RootHistory := do
  note (.began scenario)
  say ("\n" ++ Text.paint m.colored .boldBlue "Running Test:" ++ " " ++
    Text.paint m.colored .boldWhite scenario.name)
  say ("  " ++ Text.paint m.colored .dimmed scenario.description)
  let stand ← setUp m scenario
  let result ← attempt (body m site stand history scenario)
  let cleaned ← attempt (cleanUp m stand)
  let history ← ofExcept result
  ofExcept cleaned
  say ("\n" ++ Text.paint m.colored .boldGreen "✓" ++ " " ++
    Text.paint m.colored .boldGreen "Test Passed" ++ "\n")
  pure history

/-- Scenarios one after the other, up to the first that fails; those that passed, after those that
had passed before. -/
def runEach (m : Machine σ) (site : Site) :
    RootHistory → List Scenario → List Scenario → Trial σ (List Scenario)
  | _, passed, [] => pure passed
  | history, passed, scenario :: scenarios => do
    match ← attempt (runScenario m site history scenario) with
    | .error failure =>
      say ("  " ++ Text.paint m.colored .red "✗" ++ " " ++ scenario.name ++ ": " ++
        failure.message)
      throw failure
    | .ok history => runEach m site history (passed ++ [scenario]) scenarios

/-- A whole trial: the scenarios that passed. The primary identity is made first and removed
last. -/
def runAll (m : Machine σ) (runner : Runner) (repo : String) (scenarios : List Scenario) :
    Trial σ (List Scenario) := do
  let primary ← TrustDir.primary m
  let result ← attempt (runEach m ⟨runner, repo, primary⟩ .empty [] scenarios)
  let cleaned ← attempt (primary.remove m)
  let passed ← ofExcept result
  ofExcept cleaned
  pure passed

end Trial
end TrustTrial
