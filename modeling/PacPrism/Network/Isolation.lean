import PacPrism.Network.Pipelining

/-!
# Network/Isolation — what a completion leaves alone on the server

A completion ought to concern its own connection only: the accept stays pending, no exception leaves
the handler, and the other connections wait for what they were waiting for.  Two error branches do
not live up to that.  A failed accept is logged and not started again, and a failed read logs the
peer through the overload of `remote_endpoint` that throws when the peer is gone, be it an error of
the socket or one of the parser.
-/

namespace PacPrism

open Runs (Along)

variable {ρ : Type} {framing : Framing Request} {service : Service ρ}

/-- No read ends with another error than the end of the stream while the socket is disconnected, and
the router answers the request. -/
def Event.Contained : Event → Prop
  | .readFailed error connected => error = .endOfStream ∨ connected = true
  | .threw => False
  | _ => True

/-- No accept fails, and no exception can come up on a connection. -/
def Completion.Contained : Completion → Prop
  | .accepted => True
  | .acceptFailed => False
  | .onConnection _ event => event.Contained

/-- The error of a read can be logged if it is not logged at all, or the peer is there. -/
theorem logReadError_isOk (error : ReadError) (connected : Bool) :
    (logReadError error connected).isOk = true ↔ error = .endOfStream ∨ connected = true := by
  rw [logReadError]
  by_cases hend : error = .endOfStream
  · rw [if_neg (not_not.2 hend)]
    exact iff_of_true rfl (.inl hend)
  · rw [if_pos hend, remoteEndpoint]
    cases connected with
    | true => exact iff_of_true rfl (.inr rfl)
    | false => exact iff_of_false Bool.false_ne_true fun h => h.elim hend Bool.false_ne_true

/-- **Where an exception leaves a handler.** -/
theorem Event.escapes_eq_false_iff (event : Event) : event.escapes = false ↔ event.Contained := by
  cases event with
  | readFailed error connected =>
    rw [escapes, Contained, ← logReadError_isOk, Bool.not_eq_false']
  | threw => exact iff_of_false Bool.noConfusion id
  | received | requested | written | writeFailed => exact iff_of_true rfl trivial

namespace ServerTrans

/-- **What a completion leaves alone**: one accept is pending, no exception has left a handler, and
the other connections are as they were. -/
structure Isolates (s : ServerTrans ρ) (completion : Completion) (s' : ServerTrans ρ) : Prop where
  accepting : s'.accepting = 1
  running : s'.escaped = false
  others : ∀ i c, s.connections[i]? = some c → (∀ event, completion ≠ .onConnection i event) →
    s'.connections[i]? = some c

/-- Whatever completes, the other connections are as they were. -/
theorem Step.others {s s' : ServerTrans ρ} {completion : Completion}
    (h : Step framing service s completion s') {i : Nat} {c : Connection ρ}
    (hc : s.connections[i]? = some c) (hother : ∀ event, completion ≠ .onConnection i event) :
    s'.connections[i]? = some c := by
  cases h with
  | accept stream =>
    obtain ⟨hlt, -⟩ := List.getElem?_eq_some_iff.1 hc
    exact (List.getElem?_append_left hlt).trans hc
  | failAccept => exact hc
  | @complete j _ _ event =>
    have hne : j ≠ i := by
      rintro rfl
      exact hother event rfl
    exact (List.getElem?_set_ne hne).trans hc

/-- **One completion** leaves everything else alone exactly if its failure, if it is one, is
contained. -/
theorem isolates_step_iff {s s' : ServerTrans ρ} {completion : Completion}
    (haccepting : s.accepting = 1) (h : Step framing service s completion s') :
    Isolates s completion s' ↔ completion.Contained := by
  have hothers : ∀ i c, s.connections[i]? = some c →
      (∀ event, completion ≠ .onConnection i event) → s'.connections[i]? = some c :=
    fun _ _ hc hother => h.others hc hother
  cases h with
  | accept stream hrunning =>
    exact iff_of_true ⟨haccepting, hrunning, hothers⟩ trivial
  | failAccept =>
    refine iff_of_false (fun hiso => ?_) id
    have hnone := hiso.accepting
    simp [haccepting] at hnone
  | @complete _ _ _ event =>
    exact ⟨fun hiso => event.escapes_eq_false_iff.1 hiso.running,
      fun hc => ⟨haccepting, event.escapes_eq_false_iff.2 hc, hothers⟩⟩

/-- **On which runs no completion disturbs the others**: those on which no accept fails, no read
ends with another error than the end of the stream while the socket is disconnected, and the router
answers every request. -/
theorem isolates_run_iff (framing : Framing Request) (service : Service ρ)
    (run : List (Completion × ServerTrans ρ)) (h : Along (Step framing service) {} run) :
    Along Isolates {} run ↔ ∀ p ∈ run, p.1.Contained := by
  have hstep : ∀ (s : ServerTrans ρ) completion s', s.accepting = 1 →
      Step framing service s completion s' → (Isolates s completion s' ↔ completion.Contained) :=
    fun _ _ _ haccepting hstep => isolates_step_iff haccepting hstep
  exact Runs.along_iff (fun _ _ _ _ _ hiso => hiso.accepting) hstep rfl h

/-- Of two connections one is closed by its peer, and the read of the other fails while the peer is
still there. -/
theorem isolates_run_closed :
    let c : Connection RouterResponse := .accepted []
    let closed : Connection RouterResponse := { c with pending := .none }
    Along Isolates {} [(.accepted, ⟨1, [c], false⟩), (.accepted, ⟨1, [c, c], false⟩),
      (.onConnection 0 (.readFailed .endOfStream false), ⟨1, [closed, c], false⟩),
      (.onConnection 1 (.readFailed (.socket 104) true), ⟨1, [closed, closed], false⟩)] := by
  intro c closed
  have hrun : Along (Step getFraming offlineService) {} [(.accepted, ⟨1, [c], false⟩),
      (.accepted, ⟨1, [c, c], false⟩),
      (.onConnection 0 (.readFailed .endOfStream false), ⟨1, [closed, c], false⟩),
      (.onConnection 1 (.readFailed (.socket 104) true), ⟨1, [closed, closed], false⟩)] :=
    ⟨.accept [] rfl Nat.one_pos, .accept [] rfl Nat.one_pos,
      .complete rfl rfl (.failRead false nofun rfl), .complete rfl rfl (.failRead true nofun rfl),
      trivial⟩
  refine (isolates_run_iff getFraming offlineService _ hrun).2 ?_
  simp [Completion.Contained, Event.Contained]

/-- No accept is pending after one that failed. -/
theorem not_isolates_run :
    ¬ ∀ run : List (Completion × ServerTrans RouterResponse),
      Along (Step getFraming offlineService) {} run → Along Isolates {} run := by
  intro hall
  have hrun := hall [(.acceptFailed, ⟨0, [], false⟩)] ⟨.failAccept rfl Nat.one_pos, trivial⟩
  exact absurd hrun.1.accepting (by decide)

end ServerTrans

end PacPrism
