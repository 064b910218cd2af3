import HighRollers.SessionLifecycle

/-!
# The display geometry of the session

`DisplayRotationHelper` keeps one flag: a change of the display or of the
surface sets it, and the next frame reports the geometry to the session and
clears it.  The flag is not enough to make every report.  A change is lost if
it is not posted or is dropped, if it arrives while a frame is already
reporting, or if the session it was reported to is replaced.  Without these
the geometry of the session is the current one at every update.
-/

namespace HighRollers
namespace Lifecycle

open Interleaving

def System.displayGeometry (system : System) : Geometry where
  rotation := system.rotation
  width := system.viewportWidth
  height := system.viewportHeight

/-- A frame is between its look at the flag and the end of its report. -/
def GlPoint.reporting : GlPoint → Bool
  | .getRotation _ => true
  | .setDisplayGeometry _ _ => true
  | .clearViewportChanged => true
  | _ => false

/-- The frame has read the display already. -/
def GlPoint.hasRead : GlPoint → Bool
  | .setDisplayGeometry _ _ => true
  | .clearViewportChanged => true
  | _ => false

/-- The step cannot make the helper miss a change. -/
def harmless (system : System) : Event → Bool
  | .rotate _ =>
      system.listening || !system.surface || system.session.isNone
  | .onDisplayChanged => !system.gl.hasRead
  | .rotationPause => !system.changePosted
  | .onResume .created =>
      system.session.isSome || !system.surface ||
        (system.viewportChanged && !system.gl.reporting)
  | _ => true

/-- The session has the geometry of the display, or will get it. -/
def Informed (system : System) : Prop :=
  system.changePosted = true ∨
    ∀ session, system.current = some session →
      session.geometry = some system.displayGeometry

structure Reported (system : System) : Prop where
  informed : system.surface = true → system.viewportChanged = false →
    Informed system
  frame : system.gl ≠ .idle → system.surface = true
  flagged : system.gl.reporting = true → system.viewportChanged = true
  passed : ∀ session, system.gl = .getRotation session →
    system.session = none ∨ session = system.session
  read : ∀ session rotation,
    system.gl = .setDisplayGeometry session rotation →
      (system.session = none ∨ session = system.session) ∧
        (rotation = system.rotation ∨ system.changePosted = true ∨
          system.session = none)
  set : system.gl = .clearViewportChanged → Informed system

theorem informed_of_none
    {system : System} (hsession : system.session = none) : Informed system :=
  .inr (by simp [System.current, hsession])

/-- The step has nothing to do with the geometry. -/
structure SameReport (system after : System) : Prop where
  gl : after.gl = system.gl
  session : after.session = system.session
  surface : after.surface = system.surface
  viewportChanged : after.viewportChanged = system.viewportChanged
  changePosted : after.changePosted = system.changePosted
  geometry : after.displayGeometry = system.displayGeometry
  current : ∀ session, after.current = some session →
    ∃ before, system.current = some before ∧
      session.geometry = before.geometry

theorem SameReport.informed
    {system after : System} (hsame : SameReport system after)
    (hinformed : Informed system) :
    Informed after := by
  rcases hinformed with hposted | hcurrent
  · exact .inl (hsame.changePosted.trans hposted)
  · refine .inr fun session hsession => ?_
    obtain ⟨before, hbefore, hgeometry⟩ := hsame.current session hsession
    rw [hgeometry, hcurrent before hbefore, hsame.geometry]

theorem SameReport.rotation
    {system after : System} (hsame : SameReport system after) :
    after.rotation = system.rotation :=
  congrArg Geometry.rotation hsame.geometry

theorem Reported.of_same
    {system after : System} (hreported : Reported system)
    (hsame : SameReport system after) :
    Reported after := by
  constructor
  · intro hsurface hflag
    rw [hsame.surface] at hsurface
    rw [hsame.viewportChanged] at hflag
    exact hsame.informed (hreported.informed hsurface hflag)
  · rw [hsame.gl, hsame.surface]
    exact hreported.frame
  · rw [hsame.gl, hsame.viewportChanged]
    exact hreported.flagged
  · rw [hsame.gl, hsame.session]
    exact hreported.passed
  · rw [hsame.gl, hsame.session, hsame.rotation, hsame.changePosted]
    exact hreported.read
  · intro hgl
    rw [hsame.gl] at hgl
    exact hsame.informed (hreported.set hgl)

theorem SameReport.of_sessions
    {system after : System} (hgl : after.gl = system.gl)
    (hsession : after.session = system.session)
    (hsessions : after.sessions = system.sessions)
    (hsurface : after.surface = system.surface)
    (hflag : after.viewportChanged = system.viewportChanged)
    (hposted : after.changePosted = system.changePosted)
    (hgeometry : after.displayGeometry = system.displayGeometry) :
    SameReport system after where
  gl := hgl
  session := hsession
  surface := hsurface
  viewportChanged := hflag
  changePosted := hposted
  geometry := hgeometry
  current session hcurrent := by
    rw [System.current, hsession, hsessions] at hcurrent
    exact ⟨session, hcurrent, rfl⟩

theorem Reported.of_turned
    {system : System} (hreported : Reported system) {rotation : ℤ}
    (hharmless : harmless system (.rotate rotation) = true) :
    Reported (system.turned rotation) := by
  by_cases hsurface : system.surface = true
  · by_cases hsession : system.session = none
    · constructor
      · exact fun _ _ => informed_of_none hsession
      · exact hreported.frame
      · exact hreported.flagged
      · exact hreported.passed
      · exact fun _ _ _ => ⟨.inl hsession, .inr (.inr hsession)⟩
      · exact fun _ => informed_of_none hsession
    · have hlistening : system.listening = true := by
        simpa [harmless, hsurface, hsession] using hharmless
      have hposted : (system.turned rotation).changePosted = true := by
        simp [System.turned, hlistening]
      constructor
      · exact fun _ _ => .inl hposted
      · exact hreported.frame
      · exact hreported.flagged
      · exact hreported.passed
      · intro session read hgl
        exact ⟨(hreported.read session read hgl).1, .inr (.inl hposted)⟩
      · exact fun _ => .inl hposted
  · -- Without a surface there has been no frame.
    have hidle : (system.turned rotation).gl = .idle := by
      by_contra hframe
      exact hsurface (hreported.frame hframe)
    have hnone : (system.turned rotation).surface ≠ true := hsurface
    constructor <;> simp_all [GlPoint.reporting]

theorem SameReport.of_modify
    {system after : System} {number : ℕ} (change : Session → Session)
    (hsession : system.session = some number)
    (hkeeps : ∀ session, (change session).geometry = session.geometry)
    (hgl : after.gl = system.gl) (hfield : after.session = system.session)
    (hsessions :
      after.sessions = (system.modifySession number change).sessions)
    (hsurface : after.surface = system.surface)
    (hflag : after.viewportChanged = system.viewportChanged)
    (hposted : after.changePosted = system.changePosted)
    (hgeometry : after.displayGeometry = system.displayGeometry) :
    SameReport system after where
  gl := hgl
  session := hfield
  surface := hsurface
  viewportChanged := hflag
  changePosted := hposted
  geometry := hgeometry
  current session hcurrent := by
    have hmodified : (system.modifySession number change).current =
        some session := by
      rw [System.current, hfield, hsessions] at hcurrent
      exact hcurrent
    rw [current_modifySession hsession] at hmodified
    obtain ⟨before, hbefore, rfl⟩ := Option.map_eq_some_iff.mp hmodified
    exact ⟨before, hbefore, hkeeps before⟩

theorem Reported.of_idle_or_flag
    {after : System}
    (hstart : after.surface = false ∧ after.gl = .idle ∨
      after.viewportChanged = true ∧ after.gl.reporting = false ∧
        (after.gl ≠ .idle → after.surface = true)) :
    Reported after := by
  rcases hstart with ⟨hsurface, hidle⟩ | ⟨hflag, hnot, hframe⟩
  · constructor <;> simp_all [GlPoint.reporting]
  · constructor
    · simp [hflag]
    · exact hframe
    · simp [hflag]
    all_goals intros; simp_all [GlPoint.reporting]

theorem Reported.of_onResume
    {app : App} {system : System} (hreported : Reported system)
    {attempt : Attempt}
    (hharmless : harmless system (.onResume attempt) = true) :
    Reported (onResume app attempt system) := by
  cases hsession : system.session with
  | some number =>
      apply hreported.of_same
      simp only [onResume, hsession]
      split_ifs <;>
        exact .of_sessions rfl hsession.symm rfl rfl rfl rfl rfl
  | none =>
      cases attempt with
      | created =>
          have hstart : system.surface = false ∧ system.gl = .idle ∨
              system.viewportChanged = true ∧
                system.gl.reporting = false ∧
                (system.gl ≠ .idle → system.surface = true) := by
            by_cases hsurface : system.surface = true
            · right
              simpa [harmless, hsession, hsurface] using hharmless
            · left
              refine ⟨by simpa using hsurface, ?_⟩
              by_contra hframe
              exact hsurface (hreported.frame hframe)
          cases app <;> simp only [onResume, hsession] <;>
            exact .of_idle_or_flag hstart
      | _ =>
          apply hreported.of_same
          simp only [onResume, hsession]
          exact .of_sessions rfl hsession.symm rfl rfl rfl rfl rfl

theorem Reported.of_uiStep
    {app : App} {system after : System} {event : Event}
    (hreported : Reported system) (hharmless : harmless system event = true)
    (hstep : uiStep app system event = some after) :
    Reported after := by
  cases event with
  | onResume attempt =>
      simp only [uiStep, Option.ite_none_right_eq_some] at hstep
      obtain ⟨-, hafter⟩ := hstep
      cases hafter
      exact hreported.of_onResume hharmless
  | configureSession =>
      simp only [uiStep, Option.ite_none_right_eq_some, Option.bind_eq_bind,
        Option.bind_eq_some_iff] at hstep
      obtain ⟨-, number, hsession, hafter⟩ := hstep
      cases hafter
      exact hreported.of_same (.of_modify Session.configure hsession
        (fun _ => rfl) rfl rfl rfl rfl rfl rfl rfl)
  | sessionPause =>
      simp only [uiStep, Option.ite_none_right_eq_some, Option.bind_eq_bind,
        Option.bind_eq_some_iff] at hstep
      obtain ⟨-, number, hsession, hafter⟩ := hstep
      cases hafter
      exact hreported.of_same (.of_modify (Session.withState .paused) hsession
        (fun _ => rfl) rfl rfl rfl rfl rfl rfl rfl)
  | sessionResume available =>
      simp only [uiStep, Option.ite_none_right_eq_some, sessionResume,
        Option.bind_eq_bind, Option.bind_eq_some_iff] at hstep
      obtain ⟨-, number, hsession, hafter⟩ := hstep
      cases available with
      | true =>
          cases hafter
          exact hreported.of_same (.of_modify (Session.withState .resumed)
            hsession (fun _ => rfl) rfl rfl rfl rfl rfl rfl rfl)
      | false =>
          cases hafter
          constructor
          · exact fun _ _ => informed_of_none rfl
          · exact hreported.frame
          · exact hreported.flagged
          · exact fun _ _ => .inl rfl
          · exact fun _ _ _ => ⟨.inl rfl, .inr (.inr rfl)⟩
          · exact fun _ => informed_of_none rfl
  | onDisplayChanged =>
      simp only [uiStep, Option.ite_none_right_eq_some] at hstep
      obtain ⟨-, hafter⟩ := hstep
      cases hafter
      have hread : system.gl.hasRead = false := by
        simpa [harmless] using hharmless
      constructor
      · simp
      · exact hreported.frame
      · simp
      · exact hreported.passed
      · intro session rotation hgl
        simp only at hgl
        simp [hgl, GlPoint.hasRead] at hread
      · intro hgl
        simp only at hgl
        simp [hgl, GlPoint.hasRead] at hread
  | rotationPause =>
      simp only [uiStep, Option.ite_none_right_eq_some] at hstep
      obtain ⟨-, hafter⟩ := hstep
      cases hafter
      have hposted : system.changePosted = false := by
        simpa [harmless] using hharmless
      exact hreported.of_same
        (.of_sessions rfl rfl rfl rfl rfl hposted.symm rfl)
  | surfaceResume | rotationResume | onPause | surfacePause =>
      simp only [uiStep, Option.ite_none_right_eq_some] at hstep
      obtain ⟨-, hafter⟩ := hstep
      cases hafter
      exact hreported.of_same (.of_sessions rfl rfl rfl rfl rfl rfl rfl)
  | _ => simp [uiStep] at hstep

/-- The frame goes on without a report. -/
theorem Reported.of_gl
    {system : System} (hreported : Reported system) {gl : GlPoint}
    (hnot : gl.reporting = false)
    (hframe : gl ≠ .idle → system.surface = true) :
    Reported { system with gl := gl } := by
  constructor
  · exact hreported.informed
  · exact hframe
  all_goals intros; simp_all [GlPoint.reporting]

theorem Reported.of_report
    {system : System} (hreported : Reported system) {session : Option ℕ}
    {rotation : ℤ} (hgl : system.gl = .setDisplayGeometry session rotation) :
    Reported (reportGeometry session rotation system) := by
  have hsurface : system.surface = true := hreported.frame (by simp [hgl])
  have hflag : system.viewportChanged = true :=
    hreported.flagged (by simp [hgl, GlPoint.reporting])
  obtain ⟨hpassed, hread⟩ := hreported.read session rotation hgl
  cases session with
  | none => exact hreported.of_gl rfl fun _ => hsurface
  | some number =>
      constructor
      · simp [reportGeometry, System.modifySession, hflag]
      · exact fun _ => hsurface
      · exact fun _ => hflag
      · simp [reportGeometry]
      · simp [reportGeometry]
      · intro _
        rcases hread with rfl | hposted | hnone
        · rcases hpassed with hnone | hsame
          · exact informed_of_none hnone
          · refine .inr fun current hcurrent => ?_
            have hmodified := current_modifySession hsame.symm
              (Session.withGeometry system.displayGeometry)
            have hfield : (system.modifySession number
                (Session.withGeometry system.displayGeometry)).current =
                  some current := hcurrent
            rw [hmodified] at hfield
            obtain ⟨before, -, rfl⟩ := Option.map_eq_some_iff.mp hfield
            rfl
        · exact .inl hposted
        · exact informed_of_none hnone

theorem Reported.of_glStep
    {system after : System} {event : Event} (hreported : Reported system)
    (hstep : glStep system event = some after) :
    Reported after := by
  cases event with
  | onSurfaceChanged width height =>
      simp only [glStep, Option.ite_none_right_eq_some] at hstep
      obtain ⟨⟨hgl, -⟩, hafter⟩ := hstep
      cases hafter
      exact .of_idle_or_flag (.inr ⟨rfl, by simp [hgl, GlPoint.reporting],
        fun _ => rfl⟩)
  | onDrawFrame =>
      simp only [glStep, Option.ite_none_right_eq_some] at hstep
      obtain ⟨⟨-, -, hsurface⟩, hafter⟩ := hstep
      cases hafter
      apply hreported.of_gl
      · cases system.session <;> rfl
      · exact fun _ => hsurface
  | updateSessionIfNeeded =>
      simp only [glStep, Option.ite_none_right_eq_some] at hstep
      obtain ⟨hgl, hafter⟩ := hstep
      cases hafter
      have hsurface : system.surface = true := hreported.frame (by simp [hgl])
      by_cases hflag : system.viewportChanged = true
      · simp only [hflag, if_true]
        constructor <;> simp_all
      · rw [if_neg hflag]
        exact hreported.of_gl rfl fun _ => hsurface
  | getRotation =>
      simp only [glStep] at hstep
      split at hstep
      · rename_i session hgl
        cases hstep
        have hpassed := hreported.passed session hgl
        have hflag := hreported.flagged (by simp [hgl, GlPoint.reporting])
        have hsurface := hreported.frame (by simp [hgl])
        constructor
        · simp [hflag]
        · exact fun _ => hsurface
        · exact fun _ => hflag
        · simp
        · intro session' rotation heq
          cases heq
          exact ⟨hpassed, .inl rfl⟩
        · simp
      · contradiction
  | setDisplayGeometry =>
      simp only [glStep] at hstep
      split at hstep
      · rename_i session rotation hgl
        cases hstep
        exact hreported.of_report hgl
      · contradiction
  | clearViewportChanged =>
      simp only [glStep, Option.ite_none_right_eq_some] at hstep
      obtain ⟨hgl, hafter⟩ := hstep
      cases hafter
      have hinformed := hreported.set hgl
      have hsurface := hreported.frame (by simp [hgl])
      constructor
      · exact fun _ _ => hinformed
      · exact fun _ => hsurface
      all_goals simp [GlPoint.reporting]
  | setCameraTextureName =>
      simp only [glStep, Option.ite_none_right_eq_some] at hstep
      obtain ⟨hgl, hafter⟩ := hstep
      cases hafter
      have hsurface := hreported.frame (by simp [hgl])
      apply hreported.of_gl
      · cases system.session <;> rfl
      · exact fun _ => hsurface
  | update =>
      simp only [glStep, Option.ite_none_right_eq_some] at hstep
      obtain ⟨hgl, hafter⟩ := hstep
      cases hafter
      have hsurface := hreported.frame (by simp [hgl])
      unfold updateFrame
      split <;> exact hreported.of_gl rfl fun _ => hsurface
  | draw =>
      simp only [glStep, Option.ite_none_right_eq_some] at hstep
      obtain ⟨-, hafter⟩ := hstep
      cases hafter
      exact hreported.of_gl rfl (by simp)
  | _ => simp [glStep] at hstep

theorem Reported.of_step
    {app : App} {system after : System} {event : Event}
    (hreported : Reported system) (hharmless : harmless system event = true)
    (hstep : step app system event = some after) :
    Reported after := by
  rcases step_cases hstep with ⟨rotation, rfl, rfl⟩ | hui | hgl
  · exact hreported.of_turned hharmless
  · exact hreported.of_uiStep hharmless hui
  · exact hreported.of_glStep hgl

-- The display turns again while the frame reports, and this is never told.
example :
    ((run (step .euchre) (onCreate 0)
        [.onSurfaceChanged 1080 1920, .onResume .created, .sessionResume true,
          .surfaceResume, .rotationResume, .onDrawFrame,
          .updateSessionIfNeeded, .getRotation, .rotate 1, .onDisplayChanged,
          .setDisplayGeometry, .clearViewportChanged,
          .setCameraTextureName]).map fun system =>
      (system.gl, system.viewportChanged, system.changePosted,
        system.current.bind Session.geometry)) =
      some (.update, false, false, some ⟨0, 1080, 1920⟩) := by
  decide

end Lifecycle
end HighRollers
