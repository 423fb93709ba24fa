import Mathlib.Data.List.Basic
import SchemaKeeper.Proofs.Session.Refusals

/-!
# The life of a connection

A handle asks its engine for a connection only while it holds none, and makes all other calls only
while it holds one. Whether it holds one can be told without a look at the handle, from the calls
that reached the engine, their replies and the requests to let the connection go: these are the
occurrences of `Operation.history`, and `Occurrence.Held` says that the last call that connects
succeeded and that nothing has ended the connection since. `Operation.connection_lifecycle` says so
of every history of operations under any answers of the engine, and where the settings come from
with which the handle connects.
-/

namespace SchemaKeeper

/-- What the fate of a connection depends on: a call of the engine with its reply, or the request to
let the connection go. -/
inductive Occurrence where
  | called (call : Call) (reply : Reply)
  | disconnected

namespace Occurrence

/-- The occurrence is a call that connects. -/
def Connects : Occurrence → Prop
  | .called (.connect _) _ => True
  | _ => False

/-- The occurrence ends a connection: it is to be let go, or a call fails in a way that leaves it of
no use. -/
def Ends : Occurrence → Prop
  | .disconnected => True
  | .called _ (.failed e) => e.isConnectivity = true
  | _ => False

/-- A connection is held after what happened: the last call that connects succeeded, and nothing has
ended the connection since. -/
def Held (past : List Occurrence) : Prop :=
  ∃ before config after, past = before ++ .called (.connect config) .done :: after ∧
    ∀ occurrence ∈ after, ¬ occurrence.Connects ∧ ¬ occurrence.Ends

/-- The calls among some events. -/
def ofEvents (events : List Event) : List Occurrence :=
  events.filterMap fun
    | .called call reply => some (.called call reply)
    | _ => none

@[simp] theorem of_events_nil : ofEvents [] = [] := rfl

@[simp] theorem of_events_append (first second : List Event) :
    ofEvents (first ++ second) = ofEvents first ++ ofEvents second :=
  List.filterMap_append

variable {past : List Occurrence} {occurrence : Occurrence}

/-- Whether a connection is held depends on what happened last and, if this has nothing to do with
it, on what happened before. -/
theorem held_snoc : Held (past ++ [occurrence]) ↔
    (∃ config, occurrence = .called (.connect config) .done) ∨
      Held past ∧ ¬ occurrence.Connects ∧ ¬ occurrence.Ends := by
  constructor
  · rintro ⟨before, config, after, hpast, hafter⟩
    rcases List.eq_nil_or_concat' after with rfl | ⟨rest, last, rfl⟩
    · exact .inl ⟨config, (List.append_inj' hpast rfl).2 |> List.singleton_inj.mp⟩
    · rw [← List.cons_append, ← List.append_assoc] at hpast
      obtain ⟨hbefore, hlast⟩ := List.append_inj' hpast rfl
      cases hlast
      obtain ⟨hrest, hoccurrence⟩ := List.forall_mem_append.mp hafter
      exact .inr ⟨⟨before, config, rest, hbefore, hrest⟩, hoccurrence _ List.mem_cons_self⟩
  · rintro (⟨config, rfl⟩ | ⟨⟨before, config, after, rfl, hafter⟩, hoccurrence⟩)
    · exact ⟨past, config, [], rfl, List.forall_mem_nil _⟩
    · refine ⟨before, config, after ++ [occurrence], by simp, ?_⟩
      exact List.forall_mem_append.mpr ⟨hafter, List.forall_mem_singleton.mpr hoccurrence⟩

/-- What happened tells of a connection that is held or not, and of settings. -/
structure Tells (past : List Occurrence) (connected : Bool) (settings : Option Config) : Prop where
  /-- A call that connects is made only while no connection is held, any other call only while one
  is held. -/
  placed : ∀ before call reply after, past = before ++ .called call reply :: after →
    ((∃ config, call = .connect config) ↔ ¬ Held before)
  held : connected = true ↔ Held past
  /-- All calls that connect are made with the same settings, which are known from then on. -/
  resolved : ∀ config reply, .called (.connect config) reply ∈ past → settings = some config

namespace Tells

variable {connected connected' : Bool} {settings settings' : Option Config}

theorem nil (settings : Option Config) : Tells [] false settings := by
  refine ⟨fun before _ _ _ h => ?_, ?_, fun _ _ h => nomatch h⟩
  · cases before <;> cases h
  · refine ⟨nofun, ?_⟩
    rintro ⟨before, _, _, h, -⟩
    cases before <;> cases h

/-- Without settings no connection is held, as only settings can have opened it. -/
theorem closed (h : Tells past connected none) : connected = false := by
  rw [← Bool.not_eq_true, h.held]
  rintro ⟨before, config, after, rfl, -⟩
  cases h.resolved config .done (List.mem_append_right _ List.mem_cons_self)

/-- One more occurrence tells on. -/
theorem snoc (h : Tells past connected settings)
    (hplaced : ∀ call reply, occurrence = .called call reply →
      ((∃ config, call = .connect config) ↔ connected = false))
    (hheld : connected' = true ↔ (∃ config, occurrence = .called (.connect config) .done) ∨
      connected = true ∧ ¬ occurrence.Connects ∧ ¬ occurrence.Ends)
    (hsettings : ∀ config, settings = some config → settings' = some config)
    (hresolved : ∀ config reply, occurrence = .called (.connect config) reply →
      settings' = some config) : Tells (past ++ [occurrence]) connected' settings' := by
  refine ⟨fun before call reply after hpast => ?_, ?_, fun config reply hmem => ?_⟩
  · rcases List.eq_nil_or_concat' after with rfl | ⟨rest, last, rfl⟩
    · obtain ⟨rfl, hlast⟩ := List.append_inj' hpast rfl
      rw [hplaced call reply (List.singleton_inj.mp hlast), ← h.held, Bool.not_eq_true]
    · rw [← List.cons_append, ← List.append_assoc] at hpast
      exact h.placed before call reply rest (List.append_inj' hpast rfl).1
  · rw [hheld, held_snoc, h.held]
  · rcases List.mem_append.mp hmem with hmem | hmem
    · exact hsettings config (h.resolved config reply hmem)
    · exact hresolved config reply (List.mem_singleton.mp hmem).symm

/-- A call that connects is made while no connection is held. -/
theorem connect (h : Tells past false settings) {config : Config}
    (hconfig : settings = some config ∨ settings = none) {reply : Reply}
    (hconnected : connected' = true ↔ reply = .done) :
    Tells (past ++ [.called (.connect config) reply]) connected' (some config) := by
  refine h.snoc ?_ ?_ ?_ ?_
  · rintro _ _ ⟨⟩
    simp
  · simp [hconnected]
  · rintro config' rfl
    rcases hconfig with hconfig | ⟨⟨⟩⟩
    exact hconfig.symm
  · rintro _ _ ⟨⟩
    rfl

/-- Any other call is made while a connection is held, and leaves it unless it fails badly. -/
theorem call (h : Tells past true settings) {c : Call} (hc : ∀ config, c ≠ .connect config)
    {reply : Reply} (hconnected : connected' = true ↔ ¬ Ends (.called c reply)) :
    Tells (past ++ [.called c reply]) connected' settings := by
  refine h.snoc ?_ ?_ (fun _ h => h) ?_
  · rintro _ _ ⟨⟩
    simp [hc]
  · cases c with
    | connect config => exact absurd rfl (hc config)
    | execute | fetch | describe => simp [Connects, hconnected]
  · rintro _ _ ⟨⟩
    exact absurd rfl (hc _)

/-- Whether or not there is a connection, none is held once it is to be let go. -/
theorem disconnected (h : Tells past connected settings) :
    Tells (past ++ [.disconnected]) false settings :=
  h.snoc (fun _ _ => nofun) (by simp [Ends]) (fun _ h => h) fun _ _ => nofun

end Tells

end Occurrence

variable {σ α : Type} {b : Backend σ} {db next : Handle σ} {past : List Occurrence}
  {journal : List Event}

open Occurrence in
/-- What happened, and the calls in the journal from some point on, tell of the connection and the
settings of the handle. -/
def Handle.TellsOn (past : List Occurrence) (journal : List Event) (db : Handle σ) : Prop :=
  ∃ events, db.journal = journal ++ events ∧
    Tells (past ++ ofEvents events) db.connected db.settings

/-- A few more events tell on. -/
theorem Handle.TellsOn.append (h : db.TellsOn past journal) {events : List Event}
    (hjournal : next.journal = db.journal ++ events)
    (hnext : ∀ past, Occurrence.Tells past db.connected db.settings →
      Occurrence.Tells (past ++ Occurrence.ofEvents events) next.connected next.settings) :
    next.TellsOn past journal := by
  obtain ⟨before, hbefore, htells⟩ := h
  refine ⟨before ++ events, ?_, ?_⟩
  · rw [hjournal, hbefore, List.append_assoc]
  · rw [Occurrence.of_events_append, ← List.append_assoc]
    exact hnext _ htells

namespace Session

open Occurrence

theorem Connecting.tells_on {result : Except Failure Unit} (h : Connecting b db result next)
    (hdb : db.TellsOn past journal) : next.TellsOn past journal := by
  cases h with
  | held | unresolved => exact hdb
  | refused config e engine hclosed hconfig =>
      refine hdb.append rfl fun past hpast => ?_
      rw [hclosed] at hpast
      exact hpast.connect (hconfig.imp_right And.left) (by simp [hclosed, Handle.log])
  | opened config engine hclosed hconfig =>
      refine hdb.append rfl fun past hpast => ?_
      rw [hclosed] at hpast
      exact hpast.connect (hconfig.imp_right And.left) (by simp [Handle.log])

/-- No connection is held once asking for one has failed. -/
theorem Connecting.closed {e : Failure} (h : Connecting b db (.error e) next) :
    next.connected = false := by
  cases h with
  | unresolved _ hclosed | refused _ _ _ hclosed => exact hclosed

theorem Stating.tells_on {sql : String} {c : Call} {reply : α → Reply} {result : Except Failure α}
    (h : Stating b sql c reply db result next) (hc : ∀ config, c ≠ .connect config)
    (hreply : ∀ a e, reply a ≠ .failed e) (hdb : db.TellsOn past journal) :
    next.TellsOn past journal := by
  have hannounced : (db.announce sql).TellsOn past journal := hdb
  cases h with
  | unsent e mid hconnect =>
      refine (hconnect.tells_on hannounced).append rfl fun past hpast => ?_
      rw [hconnect.closed] at hpast
      simpa [ofEvents, Handle.log, Handle.settle, hconnect.closed] using hpast
  | failed e mid engine hconnect =>
      refine (hconnect.tells_on hannounced).append (List.append_assoc _ _ _) fun past hpast => ?_
      rw [hconnect.connected] at hpast
      exact hpast.call hc (by simp [Ends, Handle.log, Handle.settle, hconnect.connected])
  | replied a mid engine hconnect =>
      refine (hconnect.tells_on hannounced).append (List.append_assoc _ _ _) fun past hpast => ?_
      rw [hconnect.connected] at hpast
      have hlasts : ¬ Ends (.called c (reply a)) := by
        cases hreplied : reply a with
        | failed e => exact absurd hreplied (hreply a e)
        | done | affected | rows | columns => exact id
      exact hpast.call hc (by simp [hlasts, Handle.log, hconnect.connected])

/-- A call with a statement does not connect. -/
theorem ne_connect_of_sql {c : Call} {sql : String} (h : c.sql? b = some sql) (config : Config) :
    c ≠ .connect config := by
  rintro rfl
  cases h

theorem keeps_tells_on (b : Backend σ) (past : List Occurrence) (journal : List Event) :
    Keeps b True (Handle.TellsOn past journal) where
  connect hconnect hdb := hconnect.tells_on hdb
  statement hsql hreply hstating hdb := hstating.tells_on (ne_connect_of_sql hsql) hreply hdb
  note _ hdb := hdb.append rfl fun past hpast => by
    simpa [ofEvents, Handle.log] using hpast
  setTotal _ _ _ hdb := hdb

/-- Settings that are known stay as they are, and so does the environment. -/
theorem Connecting.kept {result : Except Failure Unit} (h : Connecting b db result next) :
    next.environment = db.environment ∧
      ∀ config, db.settings = some config → next.settings = some config := by
  have hfound : ∀ config, db.Finds config → ∀ config', db.settings = some config' →
      some config = some config' := by
    rintro config (hconfig | ⟨hnone, -⟩) config' hconfig'
    · exact hconfig.symm.trans hconfig'
    · exact absurd (hnone.symm.trans hconfig') nofun
  cases h with
  | held | unresolved => exact ⟨rfl, fun _ h => h⟩
  | refused config e engine _ hconfig => exact ⟨rfl, hfound config hconfig⟩
  | opened config engine _ hconfig => exact ⟨rfl, hfound config hconfig⟩

theorem Stating.kept {sql : String} {c : Call} {reply : α → Reply} {result : Except Failure α}
    (h : Stating b sql c reply db result next) :
    next.environment = db.environment ∧
      ∀ config, db.settings = some config → next.settings = some config := by
  cases h with
  | unsent e mid hconnect => exact hconnect.kept
  | failed e mid engine hconnect => exact hconnect.kept
  | replied a mid engine hconnect => exact hconnect.kept

theorem keeps_settings (b : Backend σ) (config : Config) :
    Keeps b True fun db => db.settings = some config where
  connect hconnect hdb := hconnect.kept.2 config hdb
  statement _ _ hstating hdb := hstating.kept.2 config hdb
  note _ hdb := hdb
  setTotal _ _ _ hdb := hdb

theorem keeps_environment (b : Backend σ) (environment : Environment) :
    Keeps b True fun db => db.environment = environment where
  connect hconnect hdb := hconnect.kept.1.trans hdb
  statement _ _ hstating hdb := hstating.kept.1.trans hdb
  note _ hdb := hdb
  setTotal _ _ _ hdb := hdb

/-- Unusable settings in the environment are as far as asking for a connection gets. -/
theorem Connecting.of_unresolved {result : Except Failure Unit} {fault : ConfigFault}
    (h : Connecting b db result next) (hclosed : db.connected = false)
    (hsettings : db.settings = none) (hfault : Config.ofEnvironment db.environment = .error fault) :
    result = .error (.ofConfig fault) ∧ next = db := by
  have hnone : ∀ config, ¬ db.Finds config := by
    rintro config (hconfig | ⟨-, hfound⟩)
    · exact absurd (hsettings.symm.trans hconfig) nofun
    · exact absurd (hfault.symm.trans hfound) nofun
  cases h with
  | held hopen => exact absurd (hclosed.symm.trans hopen) nofun
  | unresolved fault' _ _ hfault' =>
      cases hfault.symm.trans hfault'
      exact ⟨rfl, rfl⟩
  | refused config _ _ _ hconfig => exact absurd hconfig (hnone config)
  | opened config _ _ hconfig => exact absurd hconfig (hnone config)

theorem Stating.of_unresolved {sql : String} {c : Call} {reply : α → Reply}
    {result : Except Failure α} {fault : ConfigFault} (h : Stating b sql c reply db result next)
    (hclosed : db.connected = false)
    (hsettings : db.settings = none) (hfault : Config.ofEnvironment db.environment = .error fault) :
    result = .error (.ofConfig fault) ∧ next = ((db.announce sql).settle (.ofConfig fault)).log
      (.attempted sql (some (.ofConfig fault))) := by
  have hstuck : ∀ {result mid}, Connecting b (db.announce sql) result mid →
      result = .error (.ofConfig fault) ∧ mid = db.announce sql :=
    fun hconnect => hconnect.of_unresolved hclosed hsettings hfault
  cases h with
  | unsent e mid hconnect =>
      obtain ⟨he, rfl⟩ := hstuck hconnect
      cases he
      exact ⟨rfl, rfl⟩
  | failed _ _ _ hconnect | replied _ _ _ hconnect =>
      exact absurd (hstuck hconnect).1 nofun

/-- With usable settings in the environment, asking for a connection comes to a call with them. -/
theorem Connecting.of_found {result : Except Failure Unit} {config : Config}
    (h : Connecting b db result next) (hclosed : db.connected = false)
    (hsettings : db.settings = none) (hfound : Config.ofEnvironment db.environment = .ok config) :
    next.settings = some config ∧
      ∃ reply, next.journal = db.journal ++ [.called (.connect config) reply] := by
  have hsame : ∀ config', db.Finds config' → config' = config := by
    rintro config' (hconfig | ⟨-, hfound'⟩)
    · exact absurd (hsettings.symm.trans hconfig) nofun
    · exact Except.ok.inj (hfound'.symm.trans hfound)
  cases h with
  | held hopen => exact absurd (hclosed.symm.trans hopen) nofun
  | unresolved _ _ _ hfault => exact absurd (hfound.symm.trans hfault) nofun
  | refused config' e engine _ hconfig | opened config' engine _ hconfig =>
      cases hsame config' hconfig
      exact ⟨rfl, _, rfl⟩

theorem Stating.of_found {sql : String} {c : Call} {reply : α → Reply}
    {result : Except Failure α} {config : Config} (h : Stating b sql c reply db result next)
    (hclosed : db.connected = false)
    (hsettings : db.settings = none) (hfound : Config.ofEnvironment db.environment = .ok config) :
    next.settings = some config ∧
      ∃ opened after, next.journal = db.journal ++ .called (.connect config) opened :: after := by
  have hopens : ∀ {result mid}, Connecting b (db.announce sql) result mid →
      mid.settings = some config ∧
        ∃ opened, mid.journal = db.journal ++ [.called (.connect config) opened] :=
    fun hconnect => hconnect.of_found hclosed hsettings hfound
  cases h with
  | unsent e mid hconnect =>
      obtain ⟨hconfig, opened, hjournal⟩ := hopens hconnect
      refine ⟨hconfig, opened, [.attempted sql (some e)], ?_⟩
      simp [Handle.log, Handle.settle, hjournal]
  | failed e mid engine hconnect =>
      obtain ⟨hconfig, opened, hjournal⟩ := hopens hconnect
      refine ⟨hconfig, opened, [.called c (.failed e), .attempted sql (some e)], ?_⟩
      simp [Handle.log, Handle.settle, hjournal]
  | replied a mid engine hconnect =>
      obtain ⟨hconfig, opened, hjournal⟩ := hopens hconnect
      refine ⟨hconfig, opened, [.called c (reply a), .attempted sql none], ?_⟩
      simp [Handle.log, hjournal]

/-- The session begins no statement and makes no call, and a handle without settings stays
without. -/
structure AsksNothing (op : Session σ α) (db : Handle σ) : Prop where
  connected : (op.run db).2.connected = false
  settings : (op.run db).2.settings = none
  unbegun : Event.outcomes (op.trace db) = []
  uncalled : ofEvents (op.trace db) = []

/-- The session looks for settings into the environment. If there are usable ones, its first call is
to connect with them, and the handle keeps them. If not, it fails for want of them, makes no call
and finds no settings. -/
def Looks (op : Session σ α) (db : Handle σ) : Prop :=
  match Config.ofEnvironment db.environment with
  | .ok config => (op.run db).2.settings = some config ∧
      ∃ reply after, ofEvents (op.trace db) = .called (.connect config) reply :: after
  | .error fault => (op.run db).2.settings = none ∧
      failureOf (op.run db).1 = some (.ofConfig fault) ∧ ofEvents (op.trace db) = []

theorem Looks.bind {op : Session σ α} {f : α → Session σ β} (hop : op.Looks db)
    [Grows op] [∀ a, Grows (f a)]
    (hf : ∀ a db' config, db'.settings = some config → ((f a).run db').2.settings = some config) :
    (op >>= f).Looks db := by
  unfold Looks at hop ⊢
  cases hlook : Config.ofEnvironment db.environment with
  | ok config =>
      rw [hlook] at hop
      obtain ⟨hconfig, reply, after, hcalls⟩ := hop
      rcases run_bind_cases op f db with ⟨e, hresult, hrun⟩ | ⟨a, hresult, hrun⟩
      · dsimp only
        rw [hrun, trace_bind_error hresult]
        exact ⟨hconfig, reply, after, hcalls⟩
      · dsimp only
        rw [hrun, trace_bind hresult, of_events_append, hcalls, List.cons_append]
        exact ⟨hf a _ config hconfig, reply, _, rfl⟩
  | error fault =>
      rw [hlook] at hop
      obtain ⟨hsettings, hfails, huncalled⟩ := hop
      rcases run_bind_cases op f db with ⟨e, hresult, hrun⟩ | ⟨a, hresult, -⟩
      · rw [hresult] at hfails
        dsimp only
        rw [hrun, trace_bind_error hresult]
        exact ⟨hsettings, hfails, huncalled⟩
      · rw [hresult] at hfails
        cases hfails

/-- After a session that asks for nothing another one looks where it would have looked. -/
theorem AsksNothing.bind {op : Session σ α} {f : α → Session σ β} (hop : op.AsksNothing db)
    [Grows op] [∀ a, Grows (f a)] (henvironment : (op.run db).2.environment = db.environment)
    (hf : ∀ a, (f a).AsksNothing (op.run db).2 ∨ (f a).Looks (op.run db).2) :
    (op >>= f).AsksNothing db ∨ (op >>= f).Looks db := by
  rcases run_bind_cases op f db with ⟨e, hresult, hrun⟩ | ⟨a, hresult, hrun⟩
  · have htrace := trace_bind_error (f := f) hresult
    exact .inl ⟨by rw [hrun]; exact hop.connected, by rw [hrun]; exact hop.settings,
      by rw [htrace]; exact hop.unbegun, by rw [htrace]; exact hop.uncalled⟩
  · have hcalls : ofEvents ((op >>= f).trace db) = ofEvents ((f a).trace (op.run db).2) := by
      rw [trace_bind hresult, of_events_append, hop.uncalled, List.nil_append]
    refine (hf a).imp (fun hnothing => ⟨?_, ?_, ?_, ?_⟩) fun hlooks => ?_
    · rw [hrun]
      exact hnothing.connected
    · rw [hrun]
      exact hnothing.settings
    · rw [trace_bind hresult, Event.outcomes_append, hop.unbegun, hnothing.unbegun]
      rfl
    · rw [hcalls]
      exact hnothing.uncalled
    · unfold Looks at hlooks ⊢
      rwa [hrun, hcalls, ← henvironment]

/-- A statement that is begun without settings looks for them. -/
theorem statement_looks {sql : String} {c : Call} (reply : α → Reply)
    (answer : σ → Except Failure α × σ)
    (hclosed : db.connected = false) (hsettings : db.settings = none) :
    (statement b sql c reply answer).Looks db := by
  have hstating := stating b sql c reply answer db
  unfold Looks
  cases hlook : Config.ofEnvironment db.environment with
  | ok config =>
      obtain ⟨hconfig, reply', after, hjournal⟩ := hstating.of_found hclosed hsettings hlook
      exact ⟨hconfig, reply', ofEvents after, congrArg ofEvents (trace_eq hjournal)⟩
  | error fault =>
      obtain ⟨hresult, hnext⟩ := hstating.of_unresolved hclosed hsettings hlook
      have htrace : (statement b sql c reply answer).trace db =
          [.attempted sql (some (.ofConfig fault))] := trace_eq (by rw [hnext]; rfl)
      refine ⟨?_, by rw [hresult]; rfl, congrArg ofEvents htrace⟩
      rw [hnext]
      exact hsettings

theorem connect_looks (b : Backend σ) (hclosed : db.connected = false)
    (hsettings : db.settings = none) : (connect b).Looks db := by
  have hconnecting := connecting b db
  unfold Looks
  cases hlook : Config.ofEnvironment db.environment with
  | ok config =>
      obtain ⟨hconfig, reply, hjournal⟩ := hconnecting.of_found hclosed hsettings hlook
      exact ⟨hconfig, reply, [], congrArg ofEvents (trace_eq hjournal)⟩
  | error fault =>
      obtain ⟨hresult, hnext⟩ := hconnecting.of_unresolved hclosed hsettings hlook
      have htrace : (connect b).trace db = [] := trace_eq_nil (by rw [hnext])
      exact ⟨by rw [hnext, hsettings], by rw [hresult]; rfl, congrArg ofEvents htrace⟩

theorem Composed.looks {totals : Prop} {op : Session σ α} (h : Composed b totals op)
    (hclosed : db.connected = false) (hsettings : db.settings = none) :
    op.AsksNothing db ∨ op.Looks db := by
  induction h generalizing db with
  | given r =>
      have htrace : (ofExcept r).trace db = [] := trace_eq_nil rfl
      exact .inl ⟨hclosed, hsettings, congrArg Event.outcomes htrace, congrArg ofEvents htrace⟩
  | @bind _ _ op f hop hf ihop ihf =>
      have := hop.grows
      have := fun a => (hf a).grows
      rcases ihop hclosed hsettings with hfirst | hfirst
      · have henvironment := hop.keeps_all (keeps_environment b db.environment) rfl
        exact hfirst.bind henvironment fun a => ihf a hfirst.connected hfirst.settings
      · refine .inr (hfirst.bind fun a db' config hconfig => ?_)
        exact (hf a).keeps_all (keeps_settings b config) hconfig
  | connect => exact .inr (connect_looks b hclosed hsettings)
  | statement _ reply _ answer => exact .inr (statement_looks reply answer hclosed hsettings)
  | note record =>
      have htrace : (Session.note record : Session σ Unit).trace db = [.recorded record] :=
        trace_eq rfl
      exact .inl ⟨hclosed, hsettings, congrArg Event.outcomes htrace, congrArg ofEvents htrace⟩
  | setTotal _ total =>
      have htrace : (Session.setTotal total : Session σ Unit).trace db = [] := trace_eq_nil rfl
      exact .inl ⟨hclosed, hsettings, congrArg Event.outcomes htrace, congrArg ofEvents htrace⟩

/-- A session that begins a statement does not ask for nothing. -/
theorem Composed.looks_of_begins {totals : Prop} {op : Session σ α} (h : Composed b totals op)
    (hbegins : op.Begins) (hclosed : db.connected = false) (hsettings : db.settings = none) :
    op.Looks db :=
  (h.looks hclosed hsettings).resolve_left fun hnothing => hbegins db hnothing.unbegun

end Session

namespace Operation

open Session Occurrence

/-! ## One operation -/

/-- What an operation on a handle comes to: the request to let the connection go, if it is one, and
its calls. -/
def occurrences (b : Backend σ) (db : Handle σ) (op : Operation) : List Occurrence :=
  match op with
  | .disconnect => .disconnected :: ofEvents ((op.run b).trace db)
  | _ => ofEvents ((op.run b).trace db)

/-- What happens in a history of operations. -/
def history (b : Backend σ) (db : Handle σ) : List Operation → List Occurrence
  | [] => []
  | op :: rest => op.occurrences b db ++ history b ((op.run b).run db).2 rest

theorem occurrences_of_may_call {op : Operation} (h : op.MayCall) :
    op.occurrences b db = ofEvents ((op.run b).trace db) := by
  cases op with
  | disconnect => exact h.elim
  | _ => rfl

theorem occurrences_set_variables (changes : List (String × Option String)) :
    (Operation.setVariables changes).occurrences b db = [] := by
  obtain ⟨environment, hrun⟩ := run_set_variables b changes db
  exact congrArg ofEvents (trace_eq_nil (by rw [hrun]))

theorem occurrences_disconnect : Operation.disconnect.occurrences b db = [.disconnected] := by
  have htrace : (Operation.disconnect.run b).trace db = [.released] :=
    trace_eq (by rw [run_disconnect]; rfl)
  exact congrArg (.disconnected :: ofEvents ·) htrace

/-- What an operation comes to tells on. -/
theorem tells_run (op : Operation) (h : Tells past db.connected db.settings) :
    Tells (past ++ op.occurrences b db) ((op.run b).run db).2.connected
      ((op.run b).run db).2.settings := by
  rcases op.may_call_or with hcall | ⟨changes, rfl⟩ | rfl
  · have hdb : db.TellsOn past db.journal := ⟨[], (List.append_nil _).symm, by simpa using h⟩
    obtain ⟨events, hjournal, htells⟩ :=
      (op.composed b hcall).keeps_all (keeps_tells_on b past db.journal) hdb
    rwa [occurrences_of_may_call hcall, trace_eq hjournal]
  · obtain ⟨environment, hrun⟩ := run_set_variables b changes db
    rwa [occurrences_set_variables, List.append_nil, hrun]
  · rw [occurrences_disconnect, run_disconnect]
    exact h.disconnected

/-- The operation needs a connection: it connects, or it can be built and begins a statement. -/
def Asks (d : Dialect) (op : Operation) : Prop :=
  op.MayCall ∧ ∀ e, op.draft? d ≠ some (.error e)

/-- How an operation comes by the settings with which the handle connects. -/
structure Resolves (b : Backend σ) (op : Operation) (db : Handle σ) : Prop where
  /-- Settings that are known stay the same, whatever becomes of the environment. -/
  kept : ∀ config, db.settings = some config → ((op.run b).run db).2.settings = some config
  /-- Without settings, an operation that needs a connection reads the environment as it is now. Its
  first call is to connect with the settings that it finds there. -/
  found : db.settings = none → op.Asks b.dialect →
    ∀ config, Config.ofEnvironment db.environment = .ok config →
      ((op.run b).run db).2.settings = some config ∧
        ∃ reply after, op.occurrences b db = .called (.connect config) reply :: after
  /-- If the environment has no usable settings, it fails for want of them and makes no call. -/
  refused : db.settings = none → op.Asks b.dialect →
    ∀ fault, Config.ofEnvironment db.environment = .error fault →
      ((op.run b).run db).1 = .error (.ofConfig fault) ∧
        ((op.run b).run db).2.settings = none ∧ op.occurrences b db = []
  /-- Any other operation finds no settings and makes no call. -/
  idle : db.settings = none → ¬ op.Asks b.dialect → ((op.run b).run db).2.settings = none ∧
    ∀ call reply, .called call reply ∉ op.occurrences b db

/-- An operation that needs a connection begins a statement, unless it connects and nothing else. -/
theorem begins_of_asks {op : Operation} (h : op.Asks b.dialect) (hconnect : op ≠ .connect) :
    (op.run b).Begins := by
  cases hdraft : op.draft? b.dialect with
  | some draft =>
      cases draft with
      | error e => exact absurd hdraft (h.2 e)
      | ok text => exact begins_of_draft hdraft
  | none =>
      have hquery : ∀ sql, (Session.query b sql).Begins := fun _ => .attempt _ _
      cases op with
      | setVariables | disconnect => exact h.1.elim
      | connect => exact absurd rfl hconnect
      | query sql => exact (hquery sql).map _
      | execute command => exact (Begins.attempt _ _).map _
      | tables => exact (hquery _).bind.map _
      | updateSchema schema options =>
          have htables : (Session.tables b).Begins := (hquery _).bind
          exact htables.bind.map _
      | _ => cases hdraft

/-- An operation that needs a connection looks for the settings that the handle lacks. -/
theorem looks_of_asks {op : Operation} (h : op.Asks b.dialect) (hclosed : db.connected = false)
    (hsettings : db.settings = none) : (op.run b).Looks db := by
  by_cases hconnect : op = .connect
  · subst hconnect
    rw [Operation.run, map_eq_pure_bind]
    exact (connect_looks b hclosed hsettings).bind fun _ _ _ h => h
  · exact (op.composed b h.1).looks_of_begins (begins_of_asks h hconnect) hclosed hsettings

/-- On a handle without settings, an operation that needs no connection leaves it so. -/
theorem idle_of_not_asks {op : Operation} (h : ¬ op.Asks b.dialect)
    (hsettings : db.settings = none) : ((op.run b).run db).2.settings = none ∧
      ∀ call reply, .called call reply ∉ op.occurrences b db := by
  rcases op.may_call_or with hcall | ⟨changes, rfl⟩ | rfl
  · obtain ⟨e, hdraft⟩ : ∃ e, op.draft? b.dialect = some (.error e) := by
      by_contra hnone
      exact h ⟨hcall, not_exists.mp hnone⟩
    have hrun := refuses_of_draft hdraft db
    rw [occurrences_of_may_call hcall, trace_eq_nil (by rw [hrun]), hrun]
    exact ⟨hsettings, fun _ _ => nofun⟩
  · obtain ⟨environment, hrun⟩ := run_set_variables b changes db
    rw [occurrences_set_variables, hrun]
    exact ⟨hsettings, fun _ _ => nofun⟩
  · rw [occurrences_disconnect, run_disconnect]
    exact ⟨hsettings, fun _ _ => by simp⟩

theorem resolves (op : Operation) (hdb : Tells past db.connected db.settings) :
    op.Resolves b db := by
  have hlooks : db.settings = none → op.Asks b.dialect → (op.run b).Looks db :=
    fun hsettings hasks => looks_of_asks hasks (hsettings ▸ hdb).closed hsettings
  refine ⟨?kept, ?found, ?refused, fun hsettings hidle => idle_of_not_asks hidle hsettings⟩
  case kept =>
    intro config
    exact op.run_keeps ((keeps_settings b config).mono fun _ => trivial) (fun _ _ h => h)
      fun _ h => h
  case found =>
    intro hsettings hasks config hfound
    have hlooks := hlooks hsettings hasks
    rw [Looks, hfound] at hlooks
    rwa [occurrences_of_may_call hasks.1]
  case refused =>
    intro hsettings hasks fault hfault
    have hlooks := hlooks hsettings hasks
    rw [Looks, hfault] at hlooks
    obtain ⟨hnone, hfails, huncalled⟩ := hlooks
    refine ⟨?_, hnone, (occurrences_of_may_call hasks.1).trans huncalled⟩
    rcases hresult : ((op.run b).run db).1 with e | a
    all_goals rw [hresult] at hfails; cases hfails
    rfl

/-! ## Histories of operations -/

/-- What a history of operations comes to tells on. -/
theorem tells_run_all (ops : List Operation) (h : Tells past db.connected db.settings) :
    Tells (past ++ history b db ops) (runAll b db ops).connected (runAll b db ops).settings := by
  induction ops generalizing db past with
  | nil => rwa [history, List.append_nil]
  | cons op rest ih =>
      rw [history, ← List.append_assoc]
      exact ih (op.tells_run h)

/-- The changes of variables that an operation makes. -/
def changes : Operation → List (String × Option String)
  | .setVariables changes => changes
  | _ => []

/-- The value of a variable after changes of variables, given the value before: the last change of
it decides. -/
def valueAfter (name : String) (changes : List (String × Option String))
    (before : Option String) : Option String :=
  (changes.reverse.lookup name).getD before

theorem value_after_append (name : String) (first second : List (String × Option String))
    (before : Option String) : valueAfter name (first ++ second) before =
      valueAfter name second (valueAfter name first before) := by
  rw [valueAfter, List.reverse_append, List.lookup_append, Option.getD_or]
  rfl

/-- A variable that is set has the value, and every other one what it had. -/
theorem lookup_set_variable (changed : String) (value : Option String) (name : String) :
    ((setVariable changed value).run db).2.environment.lookup name =
      if name = changed then value else db.environment.lookup name := by
  show ((value.map fun v => (changed, v)).toList ++
    db.environment.filter fun e => e.1 ≠ changed).lookup name = _
  have hothers : (db.environment.filter fun e => e.1 ≠ changed).lookup name =
      if name = changed then none else db.environment.lookup name := by
    induction db.environment with
    | nil => simp
    | cons entry rest ih =>
        obtain ⟨key, held⟩ := entry
        grind
  rw [List.lookup_append, hothers]
  cases value <;> grind

theorem environment_set_all (changes : List (String × Option String)) (name : String) :
    ((setAll changes).run db).2.environment.lookup name =
      valueAfter name changes (db.environment.lookup name) := by
  induction changes generalizing db with
  | nil => rfl
  | cons change rest ih =>
      obtain ⟨changed, value⟩ := change
      show ((setAll rest).run ((setVariable changed value).run db).2).2.environment.lookup name = _
      have hone : valueAfter name [(changed, value)] (db.environment.lookup name) =
          if name = changed then value else db.environment.lookup name := by
        grind [valueAfter]
      rw [ih, lookup_set_variable, ← List.singleton_append, value_after_append, hone]

/-- An operation changes the variables that it is to change, and none besides. -/
theorem environment_run (op : Operation) (name : String) :
    ((op.run b).run db).2.environment.lookup name =
      valueAfter name op.changes (db.environment.lookup name) := by
  rcases op.may_call_or with hcall | ⟨changes, rfl⟩ | rfl
  · have henvironment :=
      (op.composed b hcall).keeps_all (keeps_environment b db.environment) rfl
    have hchanges : op.changes = [] := by
      cases op with
      | setVariables => exact hcall.elim
      | _ => rfl
    rw [henvironment, hchanges]
    rfl
  · rw [Operation.run, run_map]
    exact environment_set_all changes name
  · rw [run_disconnect]
    rfl

theorem environment_run_all (ops : List Operation) (name : String) :
    (runAll b db ops).environment.lookup name =
      valueAfter name (ops.flatMap changes) (db.environment.lookup name) := by
  induction ops generalizing db with
  | nil => rfl
  | cons op rest ih =>
      rw [List.flatMap_cons, value_after_append, ← environment_run (b := b)]
      exact ih

/-- The life of a connection, over every history of operations under any answers of the engine and
any changes of the environment. The handle asks for a connection only while it holds none and makes
all other calls only while it holds one; it holds one if and only if the last call that connects
succeeded and nothing has ended the connection since; and all calls that connect are made with the
same settings. These are the first ones that are found: until then, every operation that needs a
connection reads the environment anew, and makes no call if it has no usable settings. The
environment is the one at the start, with the changes of variables that were asked for. -/
theorem connection_lifecycle (b : Backend σ) (settings : Option Config) (environment : Environment)
    (engine : σ) (ops : List Operation) :
    Tells (history b (.start settings environment engine) ops)
        (runAll b (.start settings environment engine) ops).connected
        (runAll b (.start settings environment engine) ops).settings ∧
      (∀ op : Operation, op.Resolves b (runAll b (.start settings environment engine) ops)) ∧
      ∀ name, (runAll b (.start settings environment engine) ops).environment.lookup name =
        valueAfter name (ops.flatMap changes) (environment.lookup name) := by
  have hstart : Tells [] (Handle.start settings environment engine).connected
      (Handle.start settings environment engine).settings := .nil settings
  have htells := tells_run_all (b := b) ops hstart
  exact ⟨htells, fun op => op.resolves htells, environment_run_all ops⟩

/-- A connection that is asked for and let go, and the next one, which is opened for a statement and
lost with it. -/
example : history (Script.backend .mysql)
    (.start (some ⟨"localhost", none, "", "", "shop"⟩) []
      { fetches := [.error (.statement "server has gone away" .poolClosed)] })
    [.connect, .disconnect, .query "SELECT 1"] =
      [.called (.connect ⟨"localhost", none, "", "", "shop"⟩) .done, .disconnected,
        .called (.connect ⟨"localhost", none, "", "", "shop"⟩) .done,
        .called (.fetch "SELECT 1")
          (.failed (.statement "SELECT 1" "server has gone away" .poolClosed))] := rfl

end Operation

end SchemaKeeper
