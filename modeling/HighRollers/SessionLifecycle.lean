import HighRollers.Interleavings

/-!
# The life of the AR session

Both activities keep an ARCore session in a field.  The UI thread creates,
resumes and pauses it in `onResume` and `onPause`, while the GL thread reads
the field several times in each `onDrawFrame`.  The two handlers and the frame
are cut into the steps between which the other thread can run.  About the
system the model assumes what `GLSurfaceView` promises: frames are drawn one
after the other, only once the surface has a size and while the view is not
paused, and `onPause` of the view waits for the frame in progress.
-/

namespace HighRollers
namespace Lifecycle

open Interleaving

inductive App
  | euchre
  | poker
  deriving DecidableEq, Repr

structure Geometry where
  rotation : ℤ
  width : ℤ
  height : ℤ
  deriving DecidableEq, Repr

inductive SessionState
  | created
  | resumed
  | paused
  deriving DecidableEq, Repr

structure Session where
  state : SessionState
  configured : Bool
  geometry : Option Geometry
  deriving DecidableEq, Repr

/-- The exceptions around `new Session`. -/
inductive Unavailable
  | arcoreNotInstalled
  | userDeclinedInstallation
  | apkTooOld
  | sdkTooOld
  | deviceNotCompatible
  | other
  deriving DecidableEq, Repr

def errorMessage : App → Unavailable → String
  | _, .arcoreNotInstalled => "Please install ARCore"
  | _, .userDeclinedInstallation => "Please install ARCore"
  | _, .apkTooOld => "Please update ARCore"
  | _, .sdkTooOld => "Please update this app"
  | _, .deviceNotCompatible => "This device does not support AR"
  | .euchre, .other => "Failed to create AR session"
  | .poker, .other => "This device does not support AR"

/-- How the attempt to create a session ends. -/
inductive Attempt
  | installRequested
  | noPermission
  | unavailable (reason : Unavailable)
  | created
  deriving DecidableEq, Repr

/-- What the UI thread is about to do; `resumed` and `stopped` are between
the handlers. -/
inductive UiPoint
  | stopped
  | configureSession
  | sessionResume
  | surfaceResume
  | rotationResume
  | resumed
  | rotationPause
  | surfacePause
  | sessionPause
  deriving DecidableEq, Repr

/-- What the GL thread is about to do.  The references are the arguments of
`updateSessionIfNeeded`, which reads the field once. -/
inductive GlPoint
  | idle
  | updateSessionIfNeeded
  | getRotation (session : Option ℕ)
  | setDisplayGeometry (session : Option ℕ) (rotation : ℤ)
  | clearViewportChanged
  | setCameraTextureName
  | update
  | draw
  | dead
  deriving DecidableEq, Repr

structure System where
  session : Option ℕ
  sessions : List Session
  installRequested : Bool
  shouldConfigureSession : Bool
  snackbar : Option String
  ui : UiPoint
  gl : GlPoint
  /-- The surface has a size, and the view is not paused. -/
  surface : Bool
  drawing : Bool
  rotation : ℤ
  listening : Bool
  changePosted : Bool
  viewportChanged : Bool
  viewportWidth : ℤ
  viewportHeight : ℤ
  deriving DecidableEq, Repr

def onCreate (rotation : ℤ) : System where
  session := none
  sessions := []
  installRequested := false
  shouldConfigureSession := false
  snackbar := none
  ui := .stopped
  gl := .idle
  surface := false
  drawing := true
  rotation := rotation
  listening := false
  changePosted := false
  viewportChanged := false
  viewportWidth := 0
  viewportHeight := 0

inductive Event
  | onResume (attempt : Attempt)
  | configureSession
  | sessionResume (available : Bool)
  | surfaceResume
  | rotationResume
  | onPause
  | rotationPause
  | surfacePause
  | sessionPause
  | onDisplayChanged
  | rotate (rotation : ℤ)
  | onSurfaceChanged (width height : ℤ)
  | onDrawFrame
  | updateSessionIfNeeded
  | getRotation
  | setDisplayGeometry
  | clearViewportChanged
  | setCameraTextureName
  | update
  | draw
  deriving DecidableEq, Repr

def Session.create : Session where
  state := .created
  configured := false
  geometry := none

def Session.withState (state : SessionState) (session : Session) : Session :=
  { session with state := state }

def Session.configure (session : Session) : Session :=
  { session with configured := true }

def Session.withGeometry (geometry : Geometry) (session : Session) : Session :=
  { session with geometry := some geometry }

def System.modifySession (system : System) (number : ℕ)
    (change : Session → Session) : System :=
  { system with sessions := system.sessions.modify number change }

def System.stateOf (system : System) (number : ℕ) : Option SessionState :=
  system.sessions[number]?.map Session.state

/-- The start of `onResume`, up to the first call on the session. -/
def onResume (app : App) (attempt : Attempt) (system : System) : System :=
  match system.session with
  | some _ =>
      if system.shouldConfigureSession then
        { system with ui := .configureSession }
      else
        { system with ui := .sessionResume }
  | none =>
      match attempt with
      | .installRequested =>
          { system with installRequested := true, ui := .resumed }
      | .noPermission => { system with ui := .resumed }
      | .unavailable reason =>
          { system with snackbar := some (errorMessage app reason)
                        ui := .resumed }
      | .created =>
          let created : System := { system with
            session := some system.sessions.length
            sessions := system.sessions ++ [Session.create] }
          match app with
          | .euchre => { created with ui := .sessionResume }
          | .poker => { created with shouldConfigureSession := true
                                     ui := .configureSession }

def sessionResume (available : Bool) (system : System) : Option System := do
  let number ← system.session
  if available then
    return { system.modifySession number (Session.withState .resumed) with
      ui := .surfaceResume }
  else
    return { system with
      session := none
      snackbar := some "Camera not available. Please restart the app."
      ui := .resumed }

/-- The frame's call of `update`: an exception inside the `try` ends the frame
as its last statement does. -/
def updateFrame (system : System) : System :=
  match system.session.bind system.stateOf with
  | some .resumed => { system with gl := .draw }
  | _ => { system with gl := .idle }

def reportGeometry (session : Option ℕ) (rotation : ℤ) (system : System) :
    System :=
  match session with
  | none => { system with gl := .dead }
  | some number =>
      let geometry : Geometry :=
        ⟨rotation, system.viewportWidth, system.viewportHeight⟩
      { system.modifySession number (Session.withGeometry geometry) with
        gl := .clearViewportChanged }

def uiStep (app : App) (system : System) : Event → Option System
  | .onResume attempt =>
      if system.ui = .stopped then some (onResume app attempt system)
      else none
  | .configureSession =>
      if system.ui = .configureSession then do
        let number ← system.session
        return { system.modifySession number Session.configure with
          shouldConfigureSession := false, ui := .sessionResume }
      else none
  | .sessionResume available =>
      if system.ui = .sessionResume then sessionResume available system
      else none
  | .surfaceResume =>
      if system.ui = .surfaceResume then
        some { system with drawing := true, ui := .rotationResume }
      else none
  | .rotationResume =>
      if system.ui = .rotationResume then
        some { system with
          listening := true
          snackbar := match app with
            | .euchre => some "Searching for surfaces..."
            | .poker => system.snackbar
          ui := .resumed }
      else none
  | .onPause =>
      if system.ui = .resumed then
        some { system with ui := match system.session with
          | some _ => .rotationPause
          | none => .stopped }
      else none
  | .rotationPause =>
      if system.ui = .rotationPause then
        some { system with listening := false, changePosted := false
                           ui := .surfacePause }
      else none
  | .surfacePause =>
      if system.ui = .surfacePause ∧ system.gl = .idle then
        some { system with drawing := false, ui := .sessionPause }
      else none
  | .sessionPause =>
      if system.ui = .sessionPause then do
        let number ← system.session
        return { system.modifySession number (Session.withState .paused) with
          ui := .stopped }
      else none
  | .onDisplayChanged =>
      if system.changePosted ∧
          (system.ui = .resumed ∨ system.ui = .stopped) then
        some { system with changePosted := false, viewportChanged := true }
      else none
  | _ => none

def glStep (system : System) : Event → Option System
  | .onSurfaceChanged width height =>
      if system.gl = .idle ∧ system.drawing then
        some { system with surface := true, viewportWidth := width
                           viewportHeight := height, viewportChanged := true }
      else none
  | .onDrawFrame =>
      if system.gl = .idle ∧ system.drawing ∧ system.surface then
        some { system with gl := match system.session with
          | some _ => .updateSessionIfNeeded
          | none => .idle }
      else none
  | .updateSessionIfNeeded =>
      if system.gl = .updateSessionIfNeeded then
        some { system with gl :=
          if system.viewportChanged then .getRotation system.session
          else .setCameraTextureName }
      else none
  | .getRotation =>
      match system.gl with
      | .getRotation session =>
          some { system with
            gl := .setDisplayGeometry session system.rotation }
      | _ => none
  | .setDisplayGeometry =>
      match system.gl with
      | .setDisplayGeometry session rotation =>
          some (reportGeometry session rotation system)
      | _ => none
  | .clearViewportChanged =>
      if system.gl = .clearViewportChanged then
        some { system with viewportChanged := false
                           gl := .setCameraTextureName }
      else none
  | .setCameraTextureName =>
      if system.gl = .setCameraTextureName then
        some { system with gl := match system.session with
          | some _ => .update
          | none => .idle }
      else none
  | .update => if system.gl = .update then some (updateFrame system) else none
  | .draw =>
      if system.gl = .draw then some { system with gl := .idle } else none
  | _ => none

/-- The display turns by itself, and a registered listener is told later. -/
def System.turned (rotation : ℤ) (system : System) : System :=
  { system with
    rotation := rotation
    changePosted := system.changePosted || system.listening }

def step (app : App) (system : System) (event : Event) : Option System :=
  match event with
  | .rotate rotation => some (system.turned rotation)
  | _ => (uiStep app system event).or (glStep system event)

theorem step_cases
    {app : App} {system after : System} {event : Event}
    (hstep : step app system event = some after) :
    (∃ rotation, event = .rotate rotation ∧
        after = system.turned rotation) ∨
      uiStep app system event = some after ∨
      glStep system event = some after := by
  have hthreads : (uiStep app system event).or (glStep system event) =
      some after → uiStep app system event = some after ∨
        glStep system event = some after := by
    intro hor
    rw [Option.or_eq_some_iff] at hor
    rcases hor with hui | ⟨-, hgl⟩
    · exact .inl hui
    · exact .inr hgl
  cases event with
  | rotate rotation =>
      cases hstep
      exact .inl ⟨rotation, rfl, rfl⟩
  | _ => exact .inr (hthreads hstep)

/-! ## The session in the field -/

def System.current (system : System) : Option Session :=
  system.session.bind fun number => system.sessions[number]?

theorem current_modifySession
    {system : System} {number : ℕ} (hsession : system.session = some number)
    (change : Session → Session) :
    (system.modifySession number change).current =
      system.current.map change := by
  simp [System.current, System.modifySession, hsession]

/-- The states the session can be in at a point of the UI thread. -/
def UiPoint.expected : UiPoint → List SessionState
  | .stopped => [.paused]
  | .configureSession => [.created]
  | .sessionResume => [.created, .paused]
  | .surfaceResume => [.resumed]
  | .rotationResume => [.resumed]
  | .resumed => [.resumed]
  | .rotationPause => [.resumed]
  | .surfacePause => [.resumed]
  | .sessionPause => [.resumed]

structure Orderly (app : App) (system : System) : Prop where
  expected : ∀ session, system.current = some session →
    session.state ∈ system.ui.expected
  silent : (∃ session, system.current = some session ∧
      session.state = .paused) ∨ system.ui = .sessionPause →
    system.drawing = false ∧ system.gl = .idle
  configure : system.shouldConfigureSession = true →
    system.ui = .configureSession
  configured : app = .poker → ∀ session, system.current = some session →
    session.state ≠ .created ∨ system.ui = .sessionResume →
    session.configured = true

/-- The part of the state which only the UI thread writes. -/
structure SameControl (system after : System) : Prop where
  session : after.session = system.session
  ui : after.ui = system.ui
  drawing : after.drawing = system.drawing
  shouldConfigureSession :
    after.shouldConfigureSession = system.shouldConfigureSession
  current : ∀ session, after.current = some session →
    ∃ before, system.current = some before ∧
      session.state = before.state ∧ session.configured = before.configured

theorem SameControl.of_sessions
    {system after : System} (hsession : after.session = system.session)
    (hsessions : after.sessions = system.sessions) (hui : after.ui = system.ui)
    (hdrawing : after.drawing = system.drawing)
    (hconfigure :
      after.shouldConfigureSession = system.shouldConfigureSession) :
    SameControl system after where
  session := hsession
  ui := hui
  drawing := hdrawing
  shouldConfigureSession := hconfigure
  current session hcurrent := by
    rw [System.current, hsession, hsessions] at hcurrent
    exact ⟨session, hcurrent, rfl, rfl⟩

theorem reportGeometry_sameControl
    (session : Option ℕ) (rotation : ℤ) (system : System) :
    SameControl system (reportGeometry session rotation system) := by
  cases session with
  | none => exact .of_sessions rfl rfl rfl rfl rfl
  | some number =>
      refine ⟨rfl, rfl, rfl, rfl, ?_⟩
      intro session hcurrent
      simp only [System.current, reportGeometry, System.modifySession,
        Option.bind_eq_some_iff] at hcurrent ⊢
      obtain ⟨current, hfield, hsession⟩ := hcurrent
      rw [List.getElem?_modify] at hsession
      cases hbefore : system.sessions[current]? with
      | none => simp [hbefore] at hsession
      | some before =>
          refine ⟨before, ⟨current, hfield, hbefore⟩, ?_⟩
          rw [hbefore] at hsession
          cases hsession
          dsimp only
          split_ifs <;> exact ⟨rfl, rfl⟩

theorem glStep_sameControl
    {system after : System} {event : Event}
    (hstep : glStep system event = some after) :
    SameControl system after ∧
      (system.drawing = false → system.gl = .idle → after.gl = .idle) := by
  cases event with
  | getRotation =>
      simp only [glStep] at hstep
      split at hstep
      · rename_i session hgl
        cases hstep
        exact ⟨.of_sessions rfl rfl rfl rfl rfl, by simp [hgl]⟩
      · contradiction
  | setDisplayGeometry =>
      simp only [glStep] at hstep
      split at hstep
      · rename_i session rotation hgl
        cases hstep
        exact ⟨reportGeometry_sameControl session rotation system,
          by simp [hgl]⟩
      · contradiction
  | update =>
      simp only [glStep, Option.ite_none_right_eq_some] at hstep
      obtain ⟨hgl, hafter⟩ := hstep
      cases hafter
      constructor
      · unfold updateFrame
        split <;> exact .of_sessions rfl rfl rfl rfl rfl
      · simp [hgl]
  | onSurfaceChanged | onDrawFrame | updateSessionIfNeeded |
    clearViewportChanged | setCameraTextureName | draw =>
      simp only [glStep, Option.ite_none_right_eq_some] at hstep
      obtain ⟨hgl, hafter⟩ := hstep
      cases hafter
      exact ⟨.of_sessions rfl rfl rfl rfl rfl, by simp_all⟩
  | _ => simp [glStep] at hstep

theorem Orderly.of_sameControl
    {app : App} {system after : System} (horderly : Orderly app system)
    (hsame : SameControl system after)
    (hgl : system.drawing = false → system.gl = .idle → after.gl = .idle) :
    Orderly app after := by
  constructor
  · intro session hcurrent
    obtain ⟨before, hbefore, hstate, -⟩ := hsame.current session hcurrent
    rw [hsame.ui, hstate]
    exact horderly.expected before hbefore
  · intro hquiet
    have hbefore : (∃ session, system.current = some session ∧
        session.state = .paused) ∨ system.ui = .sessionPause := by
      rcases hquiet with ⟨session, hcurrent, hpaused⟩ | hui
      · obtain ⟨before, hbefore, hstate, -⟩ := hsame.current session hcurrent
        exact .inl ⟨before, hbefore, hstate ▸ hpaused⟩
      · exact .inr (hsame.ui ▸ hui)
    obtain ⟨hdrawing, hidle⟩ := horderly.silent hbefore
    exact ⟨hsame.drawing.trans hdrawing, hgl hdrawing hidle⟩
  · intro hconfigure
    rw [hsame.ui]
    exact horderly.configure (hsame.shouldConfigureSession ▸ hconfigure)
  · intro happ session hcurrent hready
    obtain ⟨before, hbefore, hstate, hconfigured⟩ :=
      hsame.current session hcurrent
    rw [hconfigured]
    apply horderly.configured happ before hbefore
    rwa [hstate, hsame.ui] at hready

theorem Orderly.of_none
    {app : App} {system : System} (hcurrent : system.current = none)
    (hui : system.ui ≠ .sessionPause)
    (hconfigure : system.shouldConfigureSession = true →
      system.ui = .configureSession) :
    Orderly app system := by
  constructor <;> simp_all

theorem Orderly.of_onResume
    {app : App} {system : System} (horderly : Orderly app system)
    (hui : system.ui = .stopped) (attempt : Attempt) :
    Orderly app (onResume app attempt system) := by
  have hconfigure : system.shouldConfigureSession = false := by
    by_contra hset
    have hpoint := horderly.configure (by simpa using hset)
    simp [hui] at hpoint
  cases hsession : system.session with
  | some number =>
      have hafter : onResume app attempt system =
          { system with ui := .sessionResume } := by
        simp [onResume, hsession, hconfigure]
      rw [hafter]
      have hpaused : ∀ session, system.current = some session →
          session.state = .paused := by
        intro session hcurrent
        have hstate := horderly.expected session hcurrent
        simpa [hui, UiPoint.expected] using hstate
      constructor
      · intro session hcurrent
        simp [UiPoint.expected, hpaused session hcurrent]
      · rintro (hquiet | hpoint)
        · exact horderly.silent (.inl hquiet)
        · contradiction
      · intro hset
        simp [hconfigure] at hset
      · intro happ session hcurrent _
        exact horderly.configured happ session hcurrent
          (.inl (by simp [hpaused session hcurrent]))
  | none =>
      cases attempt with
      | created =>
          cases app with
          | euchre =>
              constructor <;>
                simp [onResume, hsession, System.current,
                  UiPoint.expected, Session.create, hconfigure]
          | poker =>
              constructor <;>
                simp [onResume, hsession, System.current,
                  UiPoint.expected, Session.create]
      | _ =>
          simp only [onResume, hsession]
          exact .of_none (by simp [System.current]) (by simp)
            (by simp [hconfigure])

/-- A step which changes the state of the session as `change` does. -/
theorem Orderly.of_change
    {app : App} {system after : System} (horderly : Orderly app system)
    (change : Session → Session)
    (hcurrent : after.current = system.current.map change)
    (hexpected : ∀ session : Session, session.state ∈ system.ui.expected →
      (change session).state ∈ after.ui.expected)
    (hsilent : (∃ session : Session, session.state ∈ system.ui.expected ∧
        (change session).state = .paused) ∨ after.ui = .sessionPause →
      after.drawing = false ∧ after.gl = .idle)
    (hconfigure : after.shouldConfigureSession = true →
      after.ui = .configureSession)
    (hconfigured : app = .poker → ∀ session : Session,
      session.state ∈ system.ui.expected →
      (session.state ≠ .created ∨ system.ui = .sessionResume →
        session.configured = true) →
      (change session).state ≠ .created ∨ after.ui = .sessionResume →
      (change session).configured = true) :
    Orderly app after := by
  have hbefore : ∀ session, after.current = some session →
      ∃ before, system.current = some before ∧ change before = session := by
    intro session hsession
    rw [hcurrent] at hsession
    exact Option.map_eq_some_iff.mp hsession
  constructor
  · intro session hsession
    obtain ⟨before, hfield, rfl⟩ := hbefore session hsession
    exact hexpected before (horderly.expected before hfield)
  · rintro (⟨session, hsession, hpaused⟩ | hui)
    · obtain ⟨before, hfield, rfl⟩ := hbefore session hsession
      exact hsilent (.inl
        ⟨before, horderly.expected before hfield, hpaused⟩)
    · exact hsilent (.inr hui)
  · exact hconfigure
  · intro happ session hsession hready
    obtain ⟨before, hfield, rfl⟩ := hbefore session hsession
    exact hconfigured happ before (horderly.expected before hfield)
      (horderly.configured happ before hfield) hready

theorem Orderly.shouldConfigureSession_eq
    {app : App} {system : System} (horderly : Orderly app system)
    (hui : system.ui ≠ .configureSession) :
    system.shouldConfigureSession = false := by
  by_contra hset
  exact hui (horderly.configure (by simpa using hset))

theorem Orderly.of_uiStep
    {app : App} {system after : System} {event : Event}
    (horderly : Orderly app system)
    (hstep : uiStep app system event = some after) :
    Orderly app after := by
  cases event with
  | onResume attempt =>
      simp only [uiStep, Option.ite_none_right_eq_some] at hstep
      obtain ⟨hui, hafter⟩ := hstep
      cases hafter
      exact horderly.of_onResume hui attempt
  | configureSession =>
      simp only [uiStep, Option.ite_none_right_eq_some,
        Option.bind_eq_bind, Option.bind_eq_some_iff] at hstep
      obtain ⟨hui, number, hsession, hafter⟩ := hstep
      cases hafter
      apply horderly.of_change Session.configure
      · exact current_modifySession hsession _
      all_goals simp_all [UiPoint.expected, Session.configure]
  | sessionResume available =>
      simp only [uiStep, Option.ite_none_right_eq_some,
        sessionResume, Option.bind_eq_bind,
        Option.bind_eq_some_iff] at hstep
      obtain ⟨hui, number, hsession, hafter⟩ := hstep
      have hconfigure := horderly.shouldConfigureSession_eq (by simp [hui])
      cases available with
      | true =>
          cases hafter
          apply horderly.of_change (Session.withState .resumed)
          · exact current_modifySession hsession _
          all_goals simp_all [UiPoint.expected, Session.withState,
            System.modifySession]
      | false =>
          cases hafter
          exact .of_none (by simp [System.current]) (by simp)
            (by simp [hconfigure])
  | sessionPause =>
      simp only [uiStep, Option.ite_none_right_eq_some,
        Option.bind_eq_bind, Option.bind_eq_some_iff] at hstep
      obtain ⟨hui, number, hsession, hafter⟩ := hstep
      cases hafter
      have hconfigure := horderly.shouldConfigureSession_eq (by simp [hui])
      have hquiet := horderly.silent (.inr hui)
      apply horderly.of_change (Session.withState .paused)
      · exact current_modifySession hsession _
      all_goals simp_all [UiPoint.expected, Session.withState,
        System.modifySession]
  | onPause =>
      simp only [uiStep, Option.ite_none_right_eq_some] at hstep
      obtain ⟨hui, hafter⟩ := hstep
      cases hafter
      have hconfigure := horderly.shouldConfigureSession_eq (by simp [hui])
      cases hsession : system.session with
      | none =>
          exact .of_none (by simp [System.current]) (by simp)
            (by simp [hconfigure])
      | some number =>
          apply horderly.of_change id
          · simp [System.current, hsession]
          all_goals simp_all [UiPoint.expected]
  | surfaceResume | rotationResume | rotationPause | surfacePause =>
      simp only [uiStep, Option.ite_none_right_eq_some] at hstep
      obtain ⟨hui, hafter⟩ := hstep
      cases hafter
      have hconfigure := horderly.shouldConfigureSession_eq (by simp [hui])
      apply horderly.of_change id
      · simp [System.current]
      all_goals simp_all [UiPoint.expected]
  | onDisplayChanged =>
      simp only [uiStep, Option.ite_none_right_eq_some] at hstep
      obtain ⟨hui, hafter⟩ := hstep
      cases hafter
      exact horderly.of_sameControl (.of_sessions rfl rfl rfl rfl rfl)
        fun _ hgl => hgl
  | _ => simp [uiStep] at hstep

theorem Orderly.of_step
    {app : App} {system after : System} {event : Event}
    (horderly : Orderly app system)
    (hstep : step app system event = some after) :
    Orderly app after := by
  rcases step_cases hstep with ⟨rotation, rfl, rfl⟩ | hui | hgl
  · exact horderly.of_sameControl (.of_sessions rfl rfl rfl rfl rfl)
      fun _ hidle => hidle
  · exact horderly.of_uiStep hui
  · obtain ⟨hsame, hidle⟩ := glStep_sameControl hgl
    exact horderly.of_sameControl hsame hidle

/-- The poker app starts, draws a frame and is left. -/
def briefVisit : List Event :=
  [.onResume .created, .configureSession, .sessionResume true, .surfaceResume,
    .onSurfaceChanged 1080 1920, .rotationResume, .onDrawFrame,
    .updateSessionIfNeeded, .getRotation, .onPause, .setDisplayGeometry,
    .rotationPause, .clearViewportChanged, .setCameraTextureName]

def briefVisitSystem : System :=
  (run (step .poker) (onCreate 0) briefVisit).getD (onCreate 0)

/-- The frame has a session from its check for `null` on. -/
structure Alive (system : System) : Prop where
  alive : system.gl ≠ .dead
  checked : system.gl = .updateSessionIfNeeded → system.session ≠ none
  passed : ∀ session, system.gl = .getRotation session → session ≠ none
  reported : ∀ session rotation,
    system.gl = .setDisplayGeometry session rotation → session ≠ none

def ResumeFailsInFrame (system : System) (event : Event) : Prop :=
  event = .sessionResume false ∧ system.gl = .updateSessionIfNeeded

theorem uiStep_gl
    {app : App} {system after : System} {event : Event}
    (hstep : uiStep app system event = some after) :
    after.gl = system.gl ∧
      (after.session = none →
        system.session = none ∨ event = .sessionResume false) := by
  cases event with
  | onResume attempt =>
      simp only [uiStep, Option.ite_none_right_eq_some] at hstep
      obtain ⟨-, hafter⟩ := hstep
      cases hafter
      cases app <;> cases attempt <;> cases hsession : system.session <;>
        simp only [onResume, hsession] <;> (try split_ifs) <;> simp_all
  | sessionResume available =>
      simp only [uiStep, Option.ite_none_right_eq_some, sessionResume,
        Option.bind_eq_bind, Option.bind_eq_some_iff] at hstep
      obtain ⟨-, number, hsession, hafter⟩ := hstep
      cases available <;> cases hafter <;>
        simp [System.modifySession, hsession]
  | configureSession | sessionPause =>
      simp only [uiStep, Option.ite_none_right_eq_some, Option.bind_eq_bind,
        Option.bind_eq_some_iff] at hstep
      obtain ⟨-, number, hsession, hafter⟩ := hstep
      cases hafter
      simp [System.modifySession]
  | surfaceResume | rotationResume | onPause | rotationPause | surfacePause |
    onDisplayChanged =>
      simp only [uiStep, Option.ite_none_right_eq_some] at hstep
      obtain ⟨-, hafter⟩ := hstep
      cases hafter
      simp
  | _ => simp [uiStep] at hstep

theorem Alive.of_uiStep
    {app : App} {system after : System} {event : Event}
    (halive : Alive system) (hallowed : ¬ ResumeFailsInFrame system event)
    (hstep : uiStep app system event = some after) :
    Alive after := by
  obtain ⟨hgl, hnone⟩ := uiStep_gl hstep
  constructor
  · rw [hgl]
    exact halive.alive
  · intro hchecked hsession
    rw [hgl] at hchecked
    rcases hnone hsession with hbefore | hfails
    · exact halive.checked hchecked hbefore
    · exact hallowed ⟨hfails, hchecked⟩
  · rw [hgl]
    exact halive.passed
  · rw [hgl]
    exact halive.reported

theorem Alive.of_glStep
    {system after : System} {event : Event} (halive : Alive system)
    (hstep : glStep system event = some after) :
    Alive after := by
  cases event with
  | onDrawFrame =>
      simp only [glStep, Option.ite_none_right_eq_some] at hstep
      obtain ⟨-, hafter⟩ := hstep
      cases hafter
      cases hsession : system.session <;> constructor <;> simp
  | updateSessionIfNeeded =>
      simp only [glStep, Option.ite_none_right_eq_some] at hstep
      obtain ⟨hgl, hafter⟩ := hstep
      cases hafter
      have hsession := halive.checked hgl
      constructor <;> dsimp only <;> split_ifs <;> simp_all
  | getRotation =>
      simp only [glStep] at hstep
      split at hstep
      · rename_i session hgl
        cases hstep
        have hsession := halive.passed session hgl
        constructor <;> simp_all
      · contradiction
  | setDisplayGeometry =>
      simp only [glStep] at hstep
      split at hstep
      · rename_i session rotation hgl
        cases hstep
        have hsession := halive.reported session rotation hgl
        obtain ⟨number, rfl⟩ := Option.ne_none_iff_exists'.mp hsession
        constructor <;> simp [reportGeometry]
      · contradiction
  | update =>
      simp only [glStep, Option.ite_none_right_eq_some] at hstep
      obtain ⟨-, hafter⟩ := hstep
      cases hafter
      unfold updateFrame
      split <;> constructor <;> simp
  | setCameraTextureName =>
      simp only [glStep, Option.ite_none_right_eq_some] at hstep
      obtain ⟨-, hafter⟩ := hstep
      cases hafter
      cases system.session <;> constructor <;> simp
  | onSurfaceChanged | clearViewportChanged | draw =>
      simp only [glStep, Option.ite_none_right_eq_some] at hstep
      obtain ⟨hgl, hafter⟩ := hstep
      cases hafter
      constructor <;> simp_all
  | _ => simp [glStep] at hstep

theorem Alive.of_step
    {app : App} {system after : System} {event : Event}
    (halive : Alive system) (hallowed : ¬ ResumeFailsInFrame system event)
    (hstep : step app system event = some after) :
    Alive after := by
  rcases step_cases hstep with ⟨rotation, rfl, rfl⟩ | hui | hgl
  · exact ⟨halive.alive, halive.checked, halive.passed, halive.reported⟩
  · exact halive.of_uiStep hallowed hui
  · exact halive.of_glStep hgl

/-- The app is started on a device where the camera is taken. -/
def cameraTaken : List Event :=
  [.onSurfaceChanged 1080 1920, .onResume .created, .configureSession,
    .onDrawFrame, .sessionResume false, .updateSessionIfNeeded, .getRotation,
    .setDisplayGeometry]

/-- Outside the `try` a frame throws only where the session could not be
resumed right after the frame had found it; this does happen. -/
theorem glThread_survives (app : App) (rotation : ℤ) :
    (∀ events system,
      EveryStep (step app)
        (fun state event => ¬ ResumeFailsInFrame state event)
        (onCreate rotation) events →
      run (step app) (onCreate rotation) events = some system →
      system.gl ≠ .dead) ∧
      ∃ events system,
        run (step app) (onCreate rotation) events = some system ∧
          system.gl = .dead := by
  constructor
  · intro events system hallowed hrun
    have halive : Alive system := by
      apply invariant_of_everyStep Alive _ _ hallowed hrun
      · intro state event next halive hevent hstep
        exact halive.of_step hevent hstep
      · constructor <;> simp [onCreate]
    exact halive.alive
  · cases app with
    | poker => exact ⟨cameraTaken, _, rfl, rfl⟩
    | euchre =>
        exact ⟨cameraTaken.erase .configureSession, _, rfl, rfl⟩

instance (system : System) (event : Event) :
    Decidable (ResumeFailsInFrame system event) :=
  inferInstanceAs (Decidable (_ ∧ _))

theorem glThread_survives_briefVisit :
    EveryStep (step .poker)
        (fun state event => ¬ ResumeFailsInFrame state event) (onCreate 0)
        briefVisit ∧
      briefVisitSystem.gl ≠ .dead :=
  ⟨by decide, (glThread_survives .poker 0).1 briefVisit briefVisitSystem
    (by decide) (by decide)⟩

end Lifecycle
end HighRollers
