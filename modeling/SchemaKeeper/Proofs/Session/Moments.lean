import Mathlib.Data.List.Basic
import SchemaKeeper.Proofs.Session.Conduct
import SchemaKeeper.Proofs.Session.Faithful

/-!
# The moments of a session

`Session.Yields` says what a session under a faithful engine leads to. `Session.Attests` says what
holds on the way: whenever a change is recorded, the structure at this moment and the record are as
stated. `Session.Attests.bind` composes it along sessions in a row, where what the first one yields
is what the second one starts from.
-/

namespace SchemaKeeper

variable {σ α β : Type}

/-- Where two lists in a row are cut at an element, the cut is in one of them. -/
theorem append_eq_append_cons {γ : Type} {first second before after : List γ} {c : γ}
    (h : first ++ second = before ++ c :: after) :
    (∃ rest, first = before ++ c :: rest ∧ after = rest ++ second) ∨
      ∃ rest, before = first ++ rest ∧ second = rest ++ c :: after := by
  rcases List.append_eq_append_iff.mp h with ⟨rest, hbefore, hsecond⟩ | ⟨rest, hfirst, hcons⟩
  · exact .inr ⟨rest, hbefore, hsecond⟩
  · rcases List.cons_eq_append_iff.mp hcons with ⟨rfl, hsecond⟩ | ⟨rest', rfl, hafter⟩
    · exact .inr ⟨[], by rw [hfirst, List.append_nil, List.append_nil], hsecond⟩
    · exact .inl ⟨rest', hfirst, hafter⟩

namespace Session

/-- Whenever the engine is faithful to the structure, what is stated holds of every record that the
session makes and of the structure at the moment when it is made. -/
def Attests (b : Backend σ) (s : Structure) (op : Session σ α)
    (good : Structure → ChangeRecord → Prop) : Prop :=
  ∀ db s', db.CanConnect → b.Replays s (op.trace db) s' →
    ∀ before record after now, op.trace db = before ++ .recorded record :: after →
      b.Replays s before now → b.Replays now (.recorded record :: after) s' → good now record

namespace Attests

variable {b : Backend σ} {s : Structure} {op : Session σ α}
  {good : Structure → ChangeRecord → Prop}

/-- What holds of all records that the session can make holds at any moment. -/
theorem of_recorded (h : ∀ db record, .recorded record ∈ op.trace db → ∀ now, good now record) :
    Attests b s op good := by
  intro db s' _ _ before record after now htrace _ _
  refine h db record ?_ now
  rw [htrace]
  exact List.mem_append_right _ List.mem_cons_self

/-- A session that records nothing attests everything. -/
theorem of_unrecorded (h : ∀ db, Event.records (op.trace db) = []) : Attests b s op good :=
  of_recorded fun db record hrecord => by
    have hmem := Event.mem_records hrecord
    rw [h db] at hmem
    cases hmem

theorem of_quiet (h : op.Quiet) : Attests b s op good :=
  of_unrecorded fun db => (h db).1

protected theorem pure (a : α) : Attests b s (pure a) good :=
  of_quiet (Quiet.pure a)

/-- What is attested of two sessions is attested of them in a row, as the second one starts from
what the first one yields. -/
protected theorem bind {f : α → Session σ β} [Grows op] [∀ a, Grows (f a)]
    {post : α → Structure → Prop} (hop : Yields b s op post) (hgood : Attests b s op good)
    (hf : ∀ a mid, post a mid → Attests b mid (f a) good) : Attests b s (op >>= f) good := by
  intro db s' hready hreplays before record after now htrace hbefore hafter
  rcases h : (op.run db).1 with e | a
  · rw [trace_bind_error h] at htrace hreplays
    exact hgood db s' hready hreplays before record after now htrace hbefore hafter
  · rw [trace_bind h] at htrace
    rcases append_eq_append_cons htrace with ⟨rest, hfirst, rfl⟩ | ⟨rest, rfl, hsecond⟩
    · rw [← List.cons_append] at hafter
      obtain ⟨mid, hrest, -⟩ := Backend.Replays.append_iff.mp hafter
      have hwhole : b.Replays s (op.trace db) mid := by
        rw [hfirst]
        exact Backend.Replays.append_iff.mpr ⟨now, hbefore, hrest⟩
      exact hgood db mid hready hwhole before record rest now hfirst hbefore hrest
    · obtain ⟨mid, hfirst, hrest⟩ := Backend.Replays.append_iff.mp hbefore
      obtain ⟨a', hrun, hready', ha⟩ := hop db mid hready hfirst
      rw [h] at hrun
      cases hrun
      have hwhole : b.Replays mid ((f a).trace (op.run db).2) s' := by
        rw [hsecond]
        exact Backend.Replays.append_iff.mpr ⟨now, hrest, hafter⟩
      exact hf a mid ha (op.run db).2 s' hready' hwhole rest record after now hsecond hrest hafter

/-- A session that is followed by a value alone. -/
theorem map [Grows op] (hgood : Attests b s op good) (g : α → β) :
    Attests b s (op >>= fun a => pure (g a)) good := by
  intro db
  have htrace : (op >>= fun a => pure (g a)).trace db = op.trace db := by
    rcases h : (op.run db).1 with e | a
    · rw [trace_bind_error h]
    · rw [trace_bind h, trace_pure, List.append_nil]
  rw [htrace]
  exact hgood db

/-- A record is made at the moment at which the session starts. -/
theorem note {record : ChangeRecord} (h : good s record) :
    Attests b s (Session.note record) good := by
  intro db s' _ _ before record' after now htrace hbefore _
  have hnoted : (Session.note record : Session σ Unit).trace db = [.recorded record] := trace_eq rfl
  rw [hnoted] at htrace
  rcases List.cons_eq_append_iff.mp htrace with ⟨rfl, hcons⟩ | ⟨rest, rfl, hnil⟩
  · cases hcons
    cases hbefore
    exact h
  · cases (List.append_eq_nil_iff.mp hnil.symm).2

end Attests

end Session

end SchemaKeeper
