import OperatorDispatch.Proofs.Bookkeeping
import OperatorDispatch.Proofs.Increments
import OperatorDispatch.Proofs.Sites

/-!
# The default dispatcher and the limit of the ledger

The shared settings are those of the default dispatcher.  They are adopted together
with their limit, on request or when a dispatch wants them and there are none; and
where the limit is refused, or the environment cannot be read, neither changes.

`State.SharingStep` says all that a booking can do to the two.  From it follows by
induction what runs do: the limit is positive, settings once adopted stay until
others are asked for, and the limit stays until it is changed or settings are
adopted.
-/

namespace OperatorDispatch

/-! ## One booking -/

theorem Ledger.limit_enter (l : Ledger) (r : DispatchRecord) : (l.enter r).1.limit = l.limit :=
  enter_induction (P := fun l' => l'.limit = l.limit) rfl (fun same => same)
    fun _ _ _ same => (limit_increment ..).trans same

/-- What a booking does to the shared settings and to the limit of the ledger. -/
inductive State.SharingStep (V : Vocabulary) (s s' : State) : Prop
  | neither (shared : s'.shared = s.shared) (limit : s'.ledger.limit = s.ledger.limit)
  | limit (allowed : V.commands (.telemetry .setLimit) = true) (shared : s'.shared = s.shared)
      {n : Int} (checked : checkLimit n = .ok s'.ledger.limit)
  | both {settings : Settings}
      (asked : (∃ fields, V.commands (.telemetry (.configure fields)) = true) ∨
        s.shared = none ∧ ∃ environment, Settings.ofEnvironment environment = .ok settings)
      (shared : s'.shared = some settings)
      (checked : checkLimit settings.ledgerLimit = .ok s'.ledger.limit)

theorem State.Booking.sharingStep {V : Vocabulary} {s s' : State} (h : s.Booking V s') :
    s.SharingStep V s' := by
  cases h with
  | work later spared => exact .neither spared.shared (congrArg Ledger.limit spared.ledger)
  | read | span | reset => exact .neither rfl rfl
  | increment => exact .neither rfl (Ledger.limit_increment ..)
  | settle => exact .neither rfl (Ledger.limit_enter ..)
  | limit allowed checked => exact .limit allowed rfl checked
  | adopt asked checked => exact .both asked rfl checked

/-! ## Runs -/

namespace Vocabulary

/-- No settings are asked for. -/
def AsksForNone (V : Vocabulary) : Prop :=
  ∀ fields, V.commands (.telemetry (.configure fields)) = false

/-- No limit is set by itself. -/
def SetsNoLimit (V : Vocabulary) : Prop :=
  V.commands (.telemetry .setLimit) = false

end Vocabulary

section Runs

variable {V : Vocabulary} {s s' : State} {settings : Settings}

theorem limit_inRange {collector : Collector} (h : State.Bookings V (.initial collector) s) :
    1 ≤ s.ledger.limit ∧ (s.ledger.limit : Int) ≤ largestLimit := by
  have inRange : ∀ {n : Int} {limit : Nat}, checkLimit n = .ok limit →
      1 ≤ limit ∧ (limit : Int) ≤ largestLimit := by
    intro n limit checked
    obtain ⟨positive, bounded, same⟩ := checkLimit_eq_ok_iff.mp checked
    omega
  have default : 1 ≤ Ledger.defaultLimit ∧ (Ledger.defaultLimit : Int) ≤ largestLimit := by decide
  induction h with
  | refl => exact default
  | tail _ last ih =>
      cases last.sharingStep with
      | neither _ limit => rwa [limit]
      | limit _ _ checked => exact inRange checked
      | both _ _ checked => exact inRange checked

/-- Where no limit is set by itself, it is that of the shared settings. -/
theorem limit_eq_shared {collector : Collector} (free : V.SetsNoLimit)
    (h : State.Bookings V (.initial collector) s) :
    (s.ledger.limit : Int) =
      (s.shared.map Settings.ledgerLimit).getD Ledger.defaultLimit := by
  induction h with
  | refl => rfl
  | tail _ last ih =>
      cases last.sharingStep with
      | neither shared limit => rw [limit, shared, ih]
      | limit allowed => exact absurd allowed (by rw [free]; exact Bool.false_ne_true)
      | both _ shared checked =>
          obtain ⟨-, -, same⟩ := checkLimit_eq_ok_iff.mp checked
          rw [shared, same]
          rfl

/-- Settings once adopted stay where no others are asked for. -/
theorem shared_stays (quiet : V.AsksForNone) (h : s.Bookings V s')
    (present : s.shared = some settings) : s'.shared = some settings := by
  induction h with
  | refl => exact present
  | tail _ last ih =>
      cases last.sharingStep with
      | neither shared => rwa [shared]
      | limit _ shared => rwa [shared]
      | both asked =>
          rcases asked with ⟨fields, allowed⟩ | ⟨absent, -⟩
          · exact absurd allowed (by rw [quiet fields]; exact Bool.false_ne_true)
          · exact absurd (ih.symm.trans absent) (by simp)

/-- The second state has the settings and the limit of the first one, or settings
that were read for want of others, with their limit. -/
inductive State.Carries (s s' : State) : Prop
  | same (shared : s'.shared = s.shared) (limit : s'.ledger.limit = s.ledger.limit)
  | built {environment : Environment} {settings : Settings} (absent : s.shared = none)
      (read : Settings.ofEnvironment environment = .ok settings)
      (shared : s'.shared = some settings)
      (limit : (s'.ledger.limit : Int) = settings.ledgerLimit)

theorem carries (quiet : V.AsksForNone) (free : V.SetsNoLimit) (h : s.Bookings V s') :
    s.Carries s' := by
  induction h with
  | refl => exact .same rfl rfl
  | tail _ last ih =>
      cases last.sharingStep with
      | neither shared limit =>
          cases ih with
          | same shared' limit' => exact .same (shared.trans shared') (limit.trans limit')
          | built absent read shared' limit' =>
              exact .built absent read (shared.trans shared') (by rw [limit, limit'])
      | limit allowed => exact absurd allowed (by rw [free]; exact Bool.false_ne_true)
      | both asked shared checked =>
          obtain ⟨-, -, same⟩ := checkLimit_eq_ok_iff.mp checked
          rcases asked with ⟨fields, allowed⟩ | ⟨absent, environment, read⟩
          · exact absurd allowed (by rw [quiet fields]; exact Bool.false_ne_true)
          · cases ih with
            | same shared' => exact .built (shared'.symm.trans absent) read shared same
            | built _ _ shared' => exact absurd (shared'.symm.trans absent) (by simp)

end Runs

/-! ## Asking for settings and for limits -/

/-- What asking for settings comes to: they are adopted with their limit, or nothing
changes at all. -/
inductive State.Configures (s : State) (settings : Settings) : Prop
  | adopts {limit : Nat} (inRange : 1 ≤ settings.ledgerLimit ∧ settings.ledgerLimit ≤ largestLimit)
      (same : (limit : Int) = settings.ledgerLimit)
      (done : Action.configure settings s = .ok () (s.adopt settings limit))
  | refuses {fault : Fault}
      (outside : settings.ledgerLimit < 1 ∨ largestLimit < settings.ledgerLimit)
      (done : Action.configure settings s = .error (.raised fault) s)

/-- What setting the limit by itself comes to. -/
inductive State.TakesLimit (s : State) (n : Int) : Prop
  | takes {limit : Nat} (inRange : 1 ≤ n ∧ n ≤ largestLimit) (same : (limit : Int) = n)
      (done : Action.setLimit n s = .ok () { s with ledger := s.ledger.withLimit limit })
  | refuses {fault : Fault} (outside : n < 1 ∨ largestLimit < n)
      (done : Action.setLimit n s = .error (.raised fault) s)

/-- What wanting the default dispatcher comes to under an environment. -/
inductive State.WantsDefault (s : State) (environment : Environment) : Prop
  | keeps {settings : Settings} (present : s.shared = some settings)
      (done : Action.sharedSettings environment s = .ok settings s)
  | builds {settings : Settings} {limit : Nat} (absent : s.shared = none)
      (read : Settings.ofEnvironment environment = .ok settings)
      (inRange : 1 ≤ settings.ledgerLimit ∧ settings.ledgerLimit ≤ largestLimit)
      (same : (limit : Int) = settings.ledgerLimit)
      (done : Action.sharedSettings environment s = .ok settings (s.adopt settings limit))
  | refuses {settings : Settings} {fault : Fault} (absent : s.shared = none)
      (read : Settings.ofEnvironment environment = .ok settings)
      (outside : settings.ledgerLimit < 1 ∨ largestLimit < settings.ledgerLimit)
      (done : Action.sharedSettings environment s = .error (.raised fault) s)
  | unread {fault : Fault} (absent : s.shared = none)
      (unread : Settings.ofEnvironment environment = .error fault)
      (done : Action.sharedSettings environment s = .error (.raised fault) s)

/-- A limit is in range or refused. -/
theorem checkLimit_cases (n : Int) :
    (∃ limit, checkLimit n = .ok limit ∧ (1 ≤ n ∧ n ≤ largestLimit) ∧ (limit : Int) = n) ∨
      ∃ fault, checkLimit n = .error fault ∧ (n < 1 ∨ largestLimit < n) := by
  cases checked : checkLimit n with
  | ok limit =>
      obtain ⟨positive, bounded, same⟩ := checkLimit_eq_ok_iff.mp checked
      exact .inl ⟨limit, rfl, ⟨positive, bounded⟩, same⟩
  | error fault =>
      refine .inr ⟨fault, rfl, ?_⟩
      rcases checkLimit_eq_error_iff.mp checked with ⟨below, -⟩ | ⟨above, -⟩
      · exact .inl below
      · exact .inr above

section Requests

variable (s : State)

theorem configures (settings : Settings) : s.Configures settings := by
  rcases checkLimit_cases settings.ledgerLimit with
    ⟨limit, checked, inRange, same⟩ | ⟨fault, checked, outside⟩
  · exact .adopts inRange same (Action.configure_ok checked s)
  · exact .refuses outside (Action.configure_error checked s)

theorem takesLimit (n : Int) : s.TakesLimit n := by
  rcases checkLimit_cases n with ⟨limit, checked, inRange, same⟩ | ⟨fault, checked, outside⟩
  · exact .takes inRange same (Action.setLimit_ok checked s)
  · exact .refuses outside (Action.setLimit_error checked s)

theorem wantsDefault (environment : Environment) : s.WantsDefault environment := by
  cases stands : s.shared with
  | some settings => exact .keeps stands (Action.sharedSettings_some stands)
  | none =>
      cases read : Settings.ofEnvironment environment with
      | error fault => exact .unread stands read (Action.sharedSettings_unread stands read)
      | ok settings =>
          have begun := Action.sharedSettings_read stands read
          cases configures s settings with
          | adopts inRange same done =>
              exact .builds stands read inRange same (begun.trans (Action.bind_ok done))
          | refuses outside done =>
              exact .refuses stands read outside (begun.trans (Action.bind_error done))

end Requests

/-! ## Between two changes -/

/-- A stretch of code, or a request for settings or a limit that was refused. -/
inductive State.Calm (V : Vocabulary) (s : State) : State → Prop
  | stretch {s' : State} (h : s.Stretch V s') : Calm V s s'
  | configure {settings : Settings} {e : Interruption} {s' : State}
      (h : Action.configure settings s = .error e s') : Calm V s s'
  | limit {n : Int} {e : Interruption} {s' : State}
      (h : Action.setLimit n s = .error e s') : Calm V s s'

theorem State.Calm.books {V : Vocabulary} {s s' : State} (hs : (Scope.whole V).Confines s)
    (h : s.Calm V s') : (Scope.whole V).Confines s' ∧ s.Bookings V s' := by
  cases h with
  | stretch h => exact h.books hs
  | @configure settings _ _ h =>
      cases configures s settings with
      | adopts _ _ done => cases h.symm.trans done
      | refuses _ done =>
          cases h.symm.trans done
          exact ⟨hs, .refl⟩
  | @limit n _ _ h =>
      cases takesLimit s n with
      | takes _ _ done => cases h.symm.trans done
      | refuses _ done =>
          cases h.symm.trans done
          exact ⟨hs, .refl⟩

theorem books_of_calm {V : Vocabulary} {s s' : State} (hs : (Scope.whole V).Confines s)
    (h : Relation.ReflTransGen (State.Calm V) s s') :
    (Scope.whole V).Confines s' ∧ s.Bookings V s' := by
  induction h with
  | refl => exact ⟨hs, .refl⟩
  | tail _ last ih =>
      obtain ⟨confined, booked⟩ := ih
      obtain ⟨confined', booked'⟩ := last.books confined
      exact ⟨confined', booked.trans booked'⟩

/-! ## All runs -/

/-- The default dispatcher and the limit, in a state that a run has reached. -/
structure State.SharesSettings (s : State) : Prop where
  positive : 1 ≤ s.ledger.limit
  configures : ∀ settings, s.Configures settings
  limits : ∀ n, s.TakesLimit n
  wants : ∀ environment, s.WantsDefault environment
  /-- A dispatch through the default dispatcher wants it first. -/
  dispatches : ∀ environment call c vs request, DispatchCommand.request? c vs = some request →
    Action.dispatch call (.shared environment) c vs s =
      (do Action.serve call (← Action.sharedSettings environment) request : Action Value) s
  /-- Until a limit is set or settings are asked for with success, the limit and the
  settings stay, or settings are built for want of others. -/
  undisturbed : ∀ V : Vocabulary, V.AsksForNone → V.SetsNoLimit → (Scope.whole V).Confines s →
    ∀ s', Relation.ReflTransGen (State.Calm V) s s' → s.Carries s'
  /-- The settings stay whatever limits are set. -/
  lasting : ∀ V : Vocabulary, V.AsksForNone → (Scope.whole V).Confines s →
    ∀ s', s.LeadsTo V s' → ∀ settings, s.shared = some settings → s'.shared = some settings
  /-- In runs that set no limit by itself it is always the one of the settings. -/
  together : ∀ V : Vocabulary, V.SetsNoLimit → ReachableWithin V s →
    (s.ledger.limit : Int) = (s.shared.map Settings.ledgerLimit).getD Ledger.defaultLimit

/-- The default dispatcher and the limit of the ledger change together or not at
all. -/
theorem settings_change_with_limit {s : State} (hs : Reachable s) : s.SharesSettings where
  positive := by
    obtain ⟨_, books⟩ := hs.books
    exact (limit_inRange books).1
  configures := configures s
  limits := takesLimit s
  wants := wantsDefault s
  dispatches := fun _ _ _ _ _ made => congrFun (Action.dispatch_of_request? made) s
  undisturbed := fun _ quiet free confined _ h => carries quiet free (books_of_calm confined h).2
  lasting := fun _ quiet confined _ h _ present => shared_stays quiet (h.books confined).2 present
  together := by
    intro V free reached
    obtain ⟨_, books⟩ := reached.books
    exact limit_eq_shared free books

/-- Settings with a limit of three, and then others that are refused. -/
def reconfiguring : Expr :=
  .sequence
    [.call (.telemetry (.configure ["ledger_limit"])) [.literal (.integer 3)],
      .call (.telemetry (.configure ["trace_spans", "ledger_limit"]))
        [.literal (.boolean false), .literal (.integer 0)]]

/-- The limit and the settings are still those that were accepted. -/
theorem settings_change_with_limit_reconfigured :
    Reachable (.after 0 reconfiguring) ∧ (State.after 0 reconfiguring).SharesSettings ∧
      (State.after 0 reconfiguring).ledger.limit = 3 ∧
      (State.after 0 reconfiguring).shared.map Settings.traceSpans = some true :=
  ⟨reachable_after 0 rfl, settings_change_with_limit (reachable_after 0 rfl), by decide +kernel,
    by decide +kernel⟩

end OperatorDispatch
