import ScriptMetrics.Proofs.Bench
import ScriptMetrics.Proofs.Outlet
import ScriptMetrics.Run.Basic

/-!
What logging does to a run. A log that is open takes every line, unless it is full, and then the run is cut
off; so it is where a call to the crash reporting service fails. All that logging changes is what the log
goes to: files, settings and environment stay as they are.
-/

namespace ScriptMetrics

namespace Journal

def IsOpen (journal : Journal) : Prop :=
  journal.logging.sink ≠ .closed

def GoesTo (journal : Journal) (place : Place) : Prop :=
  journal.logging.sink = .file place

/-- The log goes to a place that takes nothing. -/
def IsFull (journal : Journal) : Prop :=
  ∃ place, journal.GoesTo place ∧ place ∈ journal.files.full

theorem isFull_of_refused {journal : Journal} (isOpen : journal.IsOpen) (refused : journal.outlet = .refused) :
    journal.IsFull := by
  unfold outlet at refused
  cases sink : journal.logging.sink with
  | standardError => simp [sink, Files.outlet] at refused
  | closed => exact absurd sink isOpen
  | file place =>
      rw [sink, Files.outlet_refused_iff] at refused
      exact ⟨place, sink, refused⟩

/-- What comes out at one place of events that are logged. -/
def said (journal : Journal) (outlet : Outlet) (events : List Event) : String :=
  if journal.outlet = outlet then String.join (events.map fun event => event.line journal.now ++ "\n") else ""

theorem said_nil (journal : Journal) (outlet : Outlet) : journal.said outlet [] = "" := by
  simp [said]

theorem said_append (journal : Journal) (outlet : Outlet) (early late : List Event) :
    journal.said outlet (early ++ late) = journal.said outlet early ++ journal.said outlet late := by
  unfold said
  split <;> simp

theorem said_congr {journal other : Journal} (outlet : other.outlet = journal.outlet)
    (now : other.now = journal.now) : other.said = journal.said := by
  funext at_ events
  simp only [said, outlet, now]

/-- Nothing but log lines has been written, to wherever the log goes. -/
structure Grown (before after : Journal) : Prop where
  files : before.files.Regrown before.GoesTo after.files
  said : ∃ events, after.errors = before.errors ++ before.said .errors events ∧
    after.output = before.output ++ before.said .output events
  now : after.now = before.now
  logging : after.logging = before.logging

theorem Grown.refl (journal : Journal) : journal.Grown journal :=
  ⟨.refl _, ⟨[], by simp [said_nil]⟩, rfl, rfl⟩

theorem Grown.goesTo {before after : Journal} (grown : before.Grown after) : after.GoesTo = before.GoesTo := by
  unfold GoesTo
  rw [grown.logging]

theorem Grown.outlet {before after : Journal} (grown : before.Grown after) : after.outlet = before.outlet := by
  unfold Journal.outlet
  rw [grown.logging, grown.files.outlet]

theorem Grown.said_eq {before after : Journal} (grown : before.Grown after) : after.said = before.said :=
  said_congr grown.outlet grown.now

theorem Grown.trans {first second third : Journal} (front : first.Grown second)
    (back : second.Grown third) : first.Grown third := by
  obtain ⟨early, errors, output⟩ := front.said
  obtain ⟨late, moreErrors, moreOutput⟩ := back.said
  refine ⟨front.files.trans (front.goesTo ▸ back.files), ⟨early ++ late, ?_, ?_⟩, back.now.trans front.now,
    back.logging.trans front.logging⟩
  · rw [moreErrors, errors, front.said_eq, said_append, String.append_assoc]
  · rw [moreOutput, output, front.said_eq, said_append, String.append_assoc]

theorem Grown.isOpen {before after : Journal} (grown : before.Grown after) (isOpen : before.IsOpen) :
    after.IsOpen := by
  unfold IsOpen
  rw [grown.logging]
  exact isOpen

theorem Grown.isFull {before after : Journal} (grown : before.Grown after) (full : after.IsFull) :
    before.IsFull := by
  rcases full with ⟨place, goes, full⟩
  rw [grown.goesTo] at goes
  rw [grown.files.rules] at full
  exact ⟨place, goes, full⟩

theorem grown_wrote (journal : Journal) (event : Event) :
    journal.Grown (journal.wrote (event.line journal.now ++ "\n")) := by
  refine ⟨?_, ⟨[event], ?_, ?_⟩, wrote_now _ _, wrote_logging _ _⟩
  · apply (wrote_regrown _ _).imp
    intro place comes
    exact (Files.outlet_file comes).1
  · simp [wrote_errors, said]
  · simp [wrote_output, said]

/-- An open log takes a line unless it is full. -/
theorem emit_ends {journal : Journal} (isOpen : journal.IsOpen) (event : Event) :
    Ends (emit event) journal (fun _ after => journal.Grown after)
      (fun cause _ => cause = .noSpace ∧ journal.IsFull) := by
  by_cases low : event.level.rank < journal.logging.level.rank
  · exact Ends.ok (emit_low low) (.refl journal)
  · by_cases refused : journal.outlet = .refused
    · exact Ends.error (emit_full low isOpen refused) ⟨rfl, isFull_of_refused isOpen refused⟩
    · exact Ends.ok (emit_taken low refused) (grown_wrote journal event)

theorem emitAll_ends {journal : Journal} (isOpen : journal.IsOpen) (events : List Event) :
    Ends (emitAll events) journal (fun _ after => journal.Grown after)
      (fun cause _ => cause = .noSpace ∧ journal.IsFull) := by
  induction events generalizing journal with
  | nil => exact Ends.ok rfl (.refl journal)
  | cons event rest ih =>
      apply (emit_ends isOpen event).bind
      intro _ next front
      apply (ih (front.isOpen isOpen)).imp
      · intro _ after back
        exact front.trans back
      · rintro cause _ ⟨rfl, full⟩
        exact ⟨rfl, front.isFull full⟩

end Journal

namespace Session

def IsOpen (session : Session) : Prop :=
  session.journal.IsOpen

/-- Nothing but log lines has been written, and crash reporting may have been called. -/
structure Grown (before after : Session) : Prop where
  environment : after.environment = before.environment
  crashFault : after.crashFault = before.crashFault
  journal : before.journal.Grown after.journal

/-- The calls that start crash reporting, if the environment says where to. -/
def startCalls (session : Session) : List CrashCall :=
  let dsn := (session.env? "SENTRY_DSN").getD ""
  let environment := (session.env? "SENTRY_ENVIRONMENT").getD "development"
  if dsn == "" then []
  else [.start dsn environment (environment == "development") true 50 "0.0", .tag "service" serviceName]

/-- Why crash reporting cannot be started, if it cannot. -/
def startFault? (session : Session) : Option String :=
  session.startCalls.findSome? session.crashFault

/-- Calls to the crash reporting service start it or report an error. -/
inductive Makes (session : Session) : CrashCall → Prop where
  | start {call : CrashCall} (listed : call ∈ session.startCalls) : Makes session call
  | capture (title path : String) : Makes session (.capture title path)

/-- What may cut a run off wherever it stands: a full log, or a call to the crash reporting service that
fails. -/
inductive Cut (session : Session) : Escape → Session → Prop where
  | full {after : Session} (full : session.journal.IsFull) : Cut session (.logging .noSpace) after
  | crash {after : Session} {call : CrashCall} {cause : String} (makes : session.Makes call)
      (fails : session.crashFault call = some cause) : Cut session (.crashService cause) after

theorem Grown.startCalls {before after : Session} (grown : before.Grown after) :
    after.startCalls = before.startCalls := by
  unfold Session.startCalls env?
  rw [grown.environment]

theorem Grown.makes {before after : Session} (grown : before.Grown after) {call : CrashCall}
    (makes : after.Makes call) : before.Makes call := by
  cases makes with
  | start listed => exact .start (grown.startCalls ▸ listed)
  | capture title path => exact .capture title path

theorem Grown.startFault? {before after : Session} (grown : before.Grown after) :
    after.startFault? = before.startFault? := by
  unfold Session.startFault?
  rw [grown.startCalls, grown.crashFault]

theorem Grown.refl (session : Session) : session.Grown session :=
  ⟨rfl, rfl, .refl _⟩

theorem Grown.trans {first second third : Session} (front : first.Grown second)
    (back : second.Grown third) : first.Grown third :=
  ⟨back.environment.trans front.environment, back.crashFault.trans front.crashFault,
    front.journal.trans back.journal⟩

theorem Grown.isOpen {before after : Session} (grown : before.Grown after) (isOpen : before.IsOpen) :
    after.IsOpen :=
  grown.journal.isOpen isOpen

theorem Grown.cut {before after last : Session} (grown : before.Grown after) {escape : Escape}
    (cut : after.Cut escape last) : before.Cut escape last := by
  cases cut with
  | full full => exact .full (grown.journal.isFull full)
  | crash makes fails => exact .crash (grown.makes makes) (grown.crashFault ▸ fails)

theorem logging_ok {α : Type} {action : Journaled α} {session : Session} {result : α} {journal : Journal}
    (logged : action session.journal = .ok result journal) :
    logging action session = .ok result { session with journal } := by
  simp only [logging, logged]

theorem logging_error {α : Type} {action : Journaled α} {session : Session} {cause : LogError}
    {journal : Journal} (failed : action session.journal = .error cause journal) :
    logging action session = .error (.logging cause) { session with journal } := by
  simp only [logging, failed]

/-- A part of a run that only adds to the log, and is cut off only if it has to be. -/
def Adds {α : Type} (x : Running α) (before : Session) (good : α → Session → Prop) : Prop :=
  Ends x before (fun value after => before.Grown after ∧ good value after) before.Cut

section Adds

variable {α β : Type} {x : Running α} {f : α → Running β} {session : Session} {good : α → Session → Prop}

theorem adds_pure {value : α} (holds : good value session) : Adds (pure value) session good :=
  Ends.ok rfl ⟨.refl session, holds⟩

theorem Adds.imp {better : α → Session → Prop} (adds : Adds x session good)
    (stronger : ∀ value after, session.Grown after → good value after → better value after) :
    Adds x session better := by
  apply Ends.imp adds
  · rintro value after ⟨grown, holds⟩
    exact ⟨grown, stronger value after grown holds⟩
  · exact fun _ _ cut => cut

theorem Adds.congr {y : Running α} (adds : Adds y session good) (same : x session = y session) : Adds x session good :=
  Ends.congr adds same

-- What cuts off the second part cuts off both.
theorem Adds.bind {next : β → Session → Prop} (first : Adds x session good)
    (onward : ∀ value after, session.Grown after → good value after → Adds (f value) after next) :
    Adds (x >>= f) session next := by
  apply Ends.bind first
  rintro value middle ⟨front, holds⟩
  apply Ends.imp (onward value middle front holds)
  · rintro _ after ⟨back, last⟩
    exact ⟨front.trans back, last⟩
  · exact fun _ _ cut => front.cut cut

theorem logging_ends {action : Journaled Unit}
    (ends : Ends action session.journal (fun _ after => session.journal.Grown after)
      (fun cause _ => cause = .noSpace ∧ session.journal.IsFull)) :
    Ends (logging action) session (fun _ after => session.Grown after)
      (fun escape _ => escape = .logging .noSpace ∧ session.journal.IsFull) := by
  cases ends with
  | ok logged grown => exact .ok (logging_ok logged) ⟨rfl, rfl, grown⟩
  | error failed full =>
      rcases full with ⟨rfl, full⟩
      exact .error (logging_error failed) ⟨rfl, full⟩

theorem adds_logging {action : Journaled Unit}
    (ends : Ends action session.journal (fun _ after => session.journal.Grown after)
      (fun cause _ => cause = .noSpace ∧ session.journal.IsFull)) :
    Adds (logging action) session fun _ _ => True := by
  apply (logging_ends ends).imp
  · exact fun _ _ grown => ⟨grown, trivial⟩
  · rintro _ _ ⟨rfl, full⟩
    exact .full full

theorem adds_emit (isOpen : session.IsOpen) (event : Event) : Adds (emit event) session fun _ _ => True :=
  adds_logging (Journal.emit_ends isOpen event)

theorem adds_emitAll (isOpen : session.IsOpen) (events : List Event) :
    Adds (logging (Journal.emitAll events)) session fun _ _ => True :=
  adds_logging (Journal.emitAll_ends isOpen events)

theorem call_fails {call : CrashCall} {cause : String} (fails : session.crashFault call = some cause) :
    callCrashReporter call session =
      .error (.crashService cause) { session with crashCalls := session.crashCalls.push call } := by
  simp only [callCrashReporter, fails]

theorem call_passes {call : CrashCall} (passes : session.crashFault call = none) :
    callCrashReporter call session = .ok () { session with crashCalls := session.crashCalls.push call } := by
  simp only [callCrashReporter, passes]

theorem adds_call {call : CrashCall} (makes : session.Makes call) :
    Adds (callCrashReporter call) session fun _ _ => True := by
  cases fails : session.crashFault call with
  | none => exact Ends.ok (call_passes fails) ⟨⟨rfl, rfl, .refl _⟩, trivial⟩
  | some cause => exact Ends.error (call_fails fails) (.crash makes fails)

theorem adds_start (isOpen : session.IsOpen) :
    Adds (CrashReports.start serviceName) session fun _ _ => True := by
  unfold CrashReports.start
  apply ends_get.bind
  rintro _ session ⟨rfl, rfl⟩
  show Adds (if _ then _ else _) session _
  split
  · exact adds_pure trivial
  · next asked =>
      have listed : session.startCalls = [.start _ _ _ true 50 "0.0", .tag "service" serviceName] := if_neg asked
      apply (adds_call (.start (listed ▸ List.mem_cons_self))).bind
      intro _ started first _
      have further : started.startCalls = _ := first.startCalls.trans listed
      apply (adds_call (.start (further ▸ List.mem_cons_of_mem _ List.mem_cons_self))).bind
      intro _ tagged second _
      apply (adds_emit ((first.trans second).isOpen isOpen) _).bind
      intro _ _ _ _
      exact adds_pure trivial

/-- Where crash reporting cannot be started, nothing is said. -/
theorem start_fails {cause : String} (fault : session.startFault? = some cause) :
    Ends (CrashReports.start serviceName) session (fun _ _ => False)
      (fun escape after => escape = .crashService cause ∧ after.output = session.output) := by
  unfold startFault? startCalls at fault
  dsimp only at fault
  unfold CrashReports.start
  apply ends_get.bind
  rintro _ session ⟨rfl, rfl⟩
  show Ends (if _ then _ else _) session _ _
  split at fault
  · cases fault
  · next asked =>
      rw [if_neg asked]
      rw [List.findSome?_cons] at fault
      split at fault
      · next fails =>
          cases fault
          exact Ends.bind_never (Ends.error (call_fails fails) ⟨rfl, rfl⟩)
      · next passes =>
          rw [List.findSome?_singleton] at fault
          apply ends_bind (call_passes passes)
          exact Ends.bind_never (Ends.error (call_fails fault) ⟨rfl, rfl⟩)

end Adds

end Session

namespace Run

/-- Why the log that the settings ask for cannot be opened, if it cannot. -/
def logFault? (settings : Settings) (journal : Journal) : Option LogError :=
  if journal.stuck then
    some .noSpace
  else
    settings.logFile.bind fun path =>
      match journal.files.openAppend path with
      | .error fault => some (.cannotOpen path fault)
      | .ok _ => none

theorem configure_error {settings : Settings} {journal : Journal} {cause : LogError}
    (fault : logFault? settings journal = some cause) (level : String) :
    Journal.configure level settings.logFile journal = .error cause journal.shut := by
  unfold logFault? at fault
  rw [Journal.configure_eq]
  split at fault
  · next stuck =>
      cases fault
      rw [if_pos stuck]
  · next free =>
      rw [if_neg free]
      cases named : settings.logFile with
      | none => simp [named] at fault
      | some path =>
          cases opens : journal.files.openAppend path with
          | ok opened => simp [named, opens] at fault
          | error why =>
              have same : LogError.cannotOpen path why = cause := by simpa [named, opens] using fault
              simp only [opens, same]

theorem configure_ok {settings : Settings} {journal : Journal} (opens : logFault? settings journal = none)
    (level : String) :
    ∃ after, Journal.configure level settings.logFile journal = .ok () after ∧ after.IsOpen ∧
      after.output = journal.output := by
  unfold logFault? at opens
  split at opens
  · cases opens
  · next free =>
      rw [Journal.configure_eq, if_neg free]
      cases named : settings.logFile with
      | none =>
          refine ⟨_, rfl, ?_, journal.shut_output⟩
          simp [Journal.IsOpen]
      | some path =>
          cases opened : journal.files.openAppend path with
          | error why => simp [named, opened] at opens
          | ok there =>
              simp only [opened]
              refine ⟨_, rfl, ?_, journal.shut_output⟩
              simp [Journal.IsOpen]

/-- The log has been configured as the settings ask for it. -/
structure Configured (settings : Settings) (before configured : Session) : Prop where
  logged : Session.logging (Journal.configure settings.logLevel.setting settings.logFile) before =
    .ok () configured
  isOpen : configured.IsOpen
  output : configured.output = before.output
  environment : configured.environment = before.environment
  crashFault : configured.crashFault = before.crashFault

theorem configured_of_opens {settings : Settings} {session : Session}
    (opens : logFault? settings session.journal = none) : ∃ configured, Configured settings session configured := by
  rcases configure_ok opens settings.logLevel.setting with ⟨journal, configures, isOpen, output⟩
  exact ⟨{ session with journal }, Session.logging_ok configures, isOpen, output, rfl, rfl⟩

section Settle

variable {arguments : List String} {given : Arguments} {session configured : Session} {settings : Settings}

theorem settle_eq (parsed : CommandLine.parse arguments = .ok given)
    (valid : given.settings session = .ok settings) :
    settle arguments session = (configureLog settings >>= fun _ => pure (.ok settings)) session := by
  unfold settle
  simp only [parsed]
  exact (bind_ok rfl).trans (by simp only [valid])

theorem settle_error (parsed : CommandLine.parse arguments = .ok given)
    (valid : given.settings session = .ok settings) {cause : LogError}
    (fault : logFault? settings session.journal = some cause) :
    ∃ after, settle arguments session = .error (.logging cause) after :=
  ⟨_, (settle_eq parsed valid).trans
    (bind_error (bind_error (Session.logging_error (configure_error fault _))))⟩

theorem configureLog_ends (configures : Configured settings session configured) :
    Ends (configureLog settings) session (fun _ opened => configured.Grown opened)
      (fun escape _ => escape = .logging .noSpace ∧ configured.journal.IsFull) :=
  ends_bind configures.logged (Session.logging_ends (Journal.emit_ends configures.isOpen _))

/-- Only a full log keeps settings from being settled that are valid and have their log open. -/
theorem settle_ends (parsed : CommandLine.parse arguments = .ok given)
    (valid : given.settings session = .ok settings) (configures : Configured settings session configured) :
    Ends (settle arguments) session (fun settled opened => settled = .ok settings ∧ configured.Grown opened)
      (fun escape _ => escape = .logging .noSpace ∧ configured.journal.IsFull) := by
  refine Ends.congr ?_ (settle_eq parsed valid)
  apply (configureLog_ends configures).bind
  intro _ opened grown
  exact .ok rfl ⟨rfl, grown⟩

-- A command line that asks for help or is refused is answered with a status and no settings.
theorem stop_ne_ok (why : CommandLine.Stop) (session opened : Session) :
    stop why session ≠ .ok (.ok settings) opened := by
  cases why <;> exact fun same => nomatch same

/-- Settings come with an open log. -/
theorem settle_opens {opened : Session} (settled : settle arguments session = .ok (.ok settings) opened) :
    ∃ given configured, CommandLine.parse arguments = .ok given ∧ given.settings session = .ok settings ∧
      Configured settings session configured ∧ configured.Grown opened := by
  cases parsed : CommandLine.parse arguments with
  | error why =>
      unfold settle at settled
      simp only [parsed] at settled
      exact absurd settled (stop_ne_ok why session opened)
  | ok given =>
      cases valid : given.settings session with
      | error issues =>
          have stopped : settle arguments session =
              stop (.refused (.invalid (Issue.summary issues))) session := by
            unfold settle
            simp only [parsed]
            exact (bind_ok rfl).trans (by simp only [valid])
          exact absurd (stopped.symm.trans settled) (stop_ne_ok _ session opened)
      | ok checked =>
          cases fault : logFault? checked session.journal with
          | some cause =>
              rcases settle_error parsed valid fault with ⟨after, failed⟩
              rw [failed] at settled
              cases settled
          | none =>
              rcases configured_of_opens fault with ⟨configured, configures⟩
              cases settle_ends parsed valid configures with
              | ok ran ends =>
                  rcases ends with ⟨rfl, grown⟩
                  cases settled.symm.trans ran
                  exact ⟨given, configured, rfl, valid, configures, grown⟩
              | error failed full => cases settled.symm.trans failed

end Settle

end Run

end ScriptMetrics
