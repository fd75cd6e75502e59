import PacPrism.Network.Listing

/-!
# Network/Tables — the tables of the running program are those of its calls

    exchanges ──callsOf, at their times──▸ calls
        │                                    │ DhtOperation.apply
        ▾                                    ▾
    connections, in any order ──────────▸ tables

The exchanges with nodes are calls of the DHT, each made when its request was handled, and nothing
else touches the tables.  So all nine are those of a run of calls, also where no answer shows it: in
the IP index, and in the empty sets that are left of shards.
-/

namespace PacPrism

open DhtOperation (Call)
open Runs (Reaches)

/-- The call an exchange has made, at this time. -/
def Exchange.callAt (nlohmann : Nlohmann) (x : Exchange) (nowSec : Int) : Option Call :=
  if Router.HasNodeHeaders x.request then Router.callOf nlohmann x.request nowSec else none

/-- The calls of the exchanges, each at the time of the world it was handled in. -/
def callsOf {σ : Type} (sys : System σ) (nlohmann : Nlohmann) (timed : List (Exchange × σ)) :
    List Call :=
  timed.filterMap fun x => x.1.callAt nlohmann (sys.now x.2)

/-- One exchange more makes its call, if it has one. -/
theorem run_callsOf_concat {σ : Type} (sys : System σ) (nlohmann : Nlohmann) (d : DhtOperation)
    (timed : List (Exchange × σ)) (x : Exchange) (w : σ) :
    Runs.run DhtOperation.apply d (callsOf sys nlohmann (timed ++ [(x, w)]))
      = (Runs.run DhtOperation.apply d (callsOf sys nlohmann timed)).after
        (x.callAt nlohmann (sys.now w)) := by
  rw [callsOf, List.filterMap_append, Runs.run_append, List.filterMap_cons]
  cases x.callAt nlohmann (sys.now w) <;> rfl

/-- The clock never goes back: nothing asked of the world sets it back, nor does the world. -/
structure System.Advances {σ : Type} (sys : System σ) (drift : σ → σ → Prop) : Prop where
  preserves : ∀ t, sys.Preserves fun w => t ≤ sys.now w
  drifts : ∀ w w', drift w w' → sys.now w ≤ sys.now w'

section

variable {σ : Type} (framing : Framing Request) (sys : System σ) (nlohmann : Nlohmann)
  (router : Router) (drift : σ → σ → Prop)

/-- **The exchange was handled in this world**, on the way from one state to the other, when there
had been the earlier exchanges: its request was routed in it, with the tables there were. -/
structure Exchange.HandledIn (s₀ s : Running σ) (earlier : List Exchange) (x : Exchange) (w : σ) :
    Prop where
  routed : ∃ t t' completion,
    Reaches (Running.Step framing sys nlohmann router drift) (fun _ => True) s₀ t
    ∧ Running.Step framing sys nlohmann router drift t completion t'
    ∧ Reaches (Running.Step framing sys nlohmann router drift) (fun _ => True) t' s
    ∧ t.exchanges = earlier ∧ t'.exchanges = earlier ++ [x] ∧ drift t.server.world w
    ∧ router.globalRouter sys nlohmann x.request ⟨t.server.dht, w⟩ = .ok x.answer t'.server

/-- **The exchanges since a state, each with the world it was handled in**, whose calls have made
its tables those of another; on a clock that advances, in the order of their times. -/
structure Tabulated (s₀ s : Running σ) (timed : List (Exchange × σ)) : Prop where
  exchanges : s.exchanges = s₀.exchanges ++ timed.map Prod.fst
  handled : ∀ before x w after, timed = before ++ (x, w) :: after →
    x.HandledIn framing sys nlohmann router drift s₀ s (s₀.exchanges ++ before.map Prod.fst) w
  tables : s.server.dht = Runs.run DhtOperation.apply s₀.server.dht (callsOf sys nlohmann timed)
  sorted : sys.Advances drift →
    (s₀.server.world :: timed.map Prod.snd).Pairwise fun w w' => sys.now w ≤ sys.now w'
  past : sys.Advances drift →
    ∀ w ∈ s₀.server.world :: timed.map Prod.snd, sys.now w ≤ sys.now s.server.world

end

section

variable {σ : Type} {framing : Framing Request} {sys : System σ} {nlohmann : Nlohmann}
  {router : Router} {drift : σ → σ → Prop} {world : σ} {s₀ s s' : Running σ}

/-- A request that is answered has made its call, at the time of the world. -/
theorem Router.dht_of_globalRouter {m : Registry} {t t' : Server σ} {request : Request}
    {answer : RouterResponse} (h : Refines m t.dht)
    (hrun : router.globalRouter sys nlohmann request t = .ok answer t') (i : Nat) :
    t'.dht = t.dht.after
      ((⟨i, request, answer⟩ : Exchange).callAt nlohmann (sys.now t.world)) := by
  rw [Exchange.callAt]
  by_cases hnode : HasNodeHeaders request
  · rw [if_pos hnode]
    rw [globalRouter_of_refines h hnode] at hrun
    cases hrespond : router.respond sys nlohmann m request with
    | error e =>
      rw [hrespond] at hrun
      cases hrun
    | ok response =>
      rw [hrespond] at hrun
      obtain ⟨-, rfl⟩ := EStateM.Result.ok.inj hrun
      rfl
  · rw [if_neg hnode]
    obtain ⟨program, hprogram⟩ := globalRouter_of_not_node sys nlohmann router hnode
    have hdht := keeps_onWorld (· = t.dht) program t rfl
    rw [← hprogram, hrun] at hdht
    exact hdht

/-- On a clock that advances, a request takes its time. -/
theorem Router.now_le_now_serve (hclock : sys.Advances drift) {m : Registry} {t : Server σ}
    (hm : Refines m t.dht) (request : Request) :
    sys.now t.world ≤ sys.now (router.serve sys nlohmann t request).world :=
  Router.serve_keeps_world (hclock.preserves (sys.now t.world)) hm request (le_refl _)

theorem Exchange.HandledIn.tail {earlier : List Exchange} {x : Exchange} {w : σ}
    (h : x.HandledIn framing sys nlohmann router drift s₀ s earlier w) {completion : Completion}
    (hstep : Running.Step framing sys nlohmann router drift s completion s') :
    x.HandledIn framing sys nlohmann router drift s₀ s' earlier w := by
  obtain ⟨t, t', routed, hbefore, hrouted, hafter, h⟩ := h.routed
  exact ⟨t, t', routed, hbefore, hrouted, hafter.tail ⟨completion, trivial, hstep⟩, h⟩

namespace Tabulated

variable {timed : List (Exchange × σ)}

theorem refl (s : Running σ) : Tabulated framing sys nlohmann router drift s s [] where
  exchanges := (List.append_nil _).symm
  handled before x w after h := by cases before <;> cases h
  tables := rfl
  sorted _ := List.pairwise_singleton _ _
  past _ := by simp

/-- An exchange adds its call, and its time is the latest. -/
theorem step_answer (h : Tabulated framing sys nlohmann router drift s₀ s timed)
    (hreach : Reaches (Running.Step framing sys nlohmann router drift) (fun _ => True) s₀ s)
    {m : Registry} (hm : Refines m s.server.dht) {completion : Completion}
    (hstep : Running.Step framing sys nlohmann router drift s completion s') {w : σ}
    (hw : drift s.server.world w) {x : Exchange}
    (hroute : router.globalRouter sys nlohmann x.request ⟨s.server.dht, w⟩ = .ok x.answer s'.server)
    (hexchanges : s'.exchanges = s.exchanges ++ [x]) :
    Tabulated framing sys nlohmann router drift s₀ s' (timed ++ [(x, w)]) := by
  have hpast (hclock : sys.Advances drift) :
      ∀ w' ∈ s₀.server.world :: timed.map Prod.snd, sys.now w' ≤ sys.now w :=
    fun w' hw' => (h.past hclock w' hw').trans (hclock.drifts _ _ hw)
  refine ⟨?_, fun before y v after horder => ?_, ?_, fun hclock => ?_, fun hclock => ?_⟩
  · rw [hexchanges, h.exchanges, List.map_append, List.append_assoc]
    rfl
  · rcases List.eq_nil_or_concat after with rfl | ⟨between, last, rfl⟩
    · obtain ⟨rfl, hlast⟩ := List.append_inj' horder rfl
      cases hlast
      rw [← h.exchanges]
      exact ⟨s, s', completion, hreach, hstep, .refl, rfl, hexchanges, hw, hroute⟩
    · rw [List.concat_eq_append, ← List.cons_append, ← List.append_assoc] at horder
      obtain ⟨horder, -⟩ := List.append_inj' horder rfl
      exact (h.handled before y v between horder).tail hstep
  · rw [run_callsOf_concat, ← h.tables]
    exact Router.dht_of_globalRouter (t := ⟨s.server.dht, w⟩) hm hroute x.connection
  · rw [List.map_append, List.map_singleton, ← List.cons_append, List.pairwise_append]
    refine ⟨h.sorted hclock, List.pairwise_singleton _ _, fun w' hw' v hv => ?_⟩
    rw [List.mem_singleton.1 hv]
    exact hpast hclock w' hw'
  · have hserved : router.serve sys nlohmann ⟨s.server.dht, w⟩ x.request = s'.server := by
      rw [Router.serve, hroute]
      rfl
    have hlater : sys.now w ≤ sys.now s'.server.world := by
      rw [← hserved]
      exact Router.now_le_now_serve (t := ⟨s.server.dht, w⟩) hclock hm x.request
    rw [List.map_append, List.map_singleton, ← List.cons_append, List.forall_mem_append,
      List.forall_mem_singleton]
    exact ⟨fun w' hw' => (hpast hclock w' hw').trans hlater, hlater⟩

/-- **Each step of the program** makes the call of an exchange, or none. -/
theorem step (h : Tabulated framing sys nlohmann router drift s₀ s timed)
    (hreach : Reaches (Running.Step framing sys nlohmann router drift) (fun _ => True) s₀ s)
    {m : Registry} (hm : Refines m s.server.dht) {completion : Completion}
    (hstep : Running.Step framing sys nlohmann router drift s completion s') :
    ∃ timed', Tabulated framing sys nlohmann router drift s₀ s' timed' := by
  have hhandled : ∀ before x w after, timed = before ++ (x, w) :: after →
      x.HandledIn framing sys nlohmann router drift s₀ s' (s₀.exchanges ++ before.map Prod.fst) w :=
    fun before x w after horder => (h.handled before x w after horder).tail hstep
  cases hstep with
  | transmit => exact ⟨timed, h.exchanges, hhandled, h.tables, h.sorted, h.past⟩
  | answer hrunning hconnection hpending hcomplete hw hroute hanswer =>
    exact ⟨_, h.step_answer hreach hm
      (.answer hrunning hconnection hpending hcomplete hw hroute hanswer) hw hroute rfl⟩
  | @fail i c buffer n w _ _ _ _ hw hfails =>
    refine ⟨timed, h.exchanges, hhandled, ?_, h.sorted, fun hclock w' hw' => ?_⟩
    · dsimp only
      rw [Router.dht_serve_of_fails hfails]
      exact h.tables
    · refine ((h.past hclock w' hw').trans (hclock.drifts _ _ hw)).trans ?_
      exact Router.now_le_now_serve (t := ⟨s.server.dht, w⟩) hclock hm _

end Tabulated

/-- **All nine tables are those of the calls that the exchanges have made**, one after another in
the order in which the requests were handled, each at the time of the world it was handled in; and
on a clock that never goes back these times do not. -/
theorem tables_of_exchanges
    (hs₀ : Running.Reachable framing sys nlohmann router drift world s₀)
    (hrun : Reaches (Running.Step framing sys nlohmann router drift) (fun _ => True) s₀ s) :
    ∃ timed : List (Exchange × σ), s.exchanges = s₀.exchanges ++ timed.map Prod.fst
      ∧ (∀ before x w after, timed = before ++ (x, w) :: after →
        x.HandledIn framing sys nlohmann router drift s₀ s
          (s₀.exchanges ++ before.map Prod.fst) w)
      ∧ s.server.dht = Runs.run DhtOperation.apply s₀.server.dht (callsOf sys nlohmann timed)
      ∧ (sys.Advances drift →
        (s₀.server.world :: timed.map Prod.snd).Pairwise fun w w' => sys.now w ≤ sys.now w') := by
  obtain ⟨timed, h⟩ : ∃ timed, Tabulated framing sys nlohmann router drift s₀ s timed := by
    refine hrun.invariant_of_reaches
      (I := fun s => ∃ timed, Tabulated framing sys nlohmann router drift s₀ s timed)
      (fun s _ _ hreach _ hstep ⟨timed, ih⟩ => ?_) ⟨[], .refl s₀⟩
    have hreachable : Running.Reachable framing sys nlohmann router drift world s :=
      hs₀.trans hreach
    obtain ⟨m, -, hm⟩ := hreachable.exists_map
    exact ih.step hreach hm hstep
  exact ⟨timed, h.exchanges, h.handled, h.tables, h.sorted⟩

end

/-- A store and a cleanup, on a clock that shows 20. -/
theorem tables_of_exchanges_cleaned :
    let router : Router := ⟨⟨{}, lit "./cache", lit "ftp.debian.org"⟩, lit "0.1.0"⟩
    let sys := Disk.system (.tree []) { Script.offline .current with systemClock := 20000000000 }
    ∃ s : Running TreeDisk,
      Running.Reachable shardFraming sys shardNlohmann router Eq (.empty []) s
      ∧ s.exchanges.length = 2
      ∧ s.server.dht = DhtOperation.run [.storeEntry shardEntry, .cleanByExpiryTime 20] := by
  intro router sys
  let start : Running TreeDisk := .started (.empty [])
  let store := lit "POST /api/dht/store HTTP/1.1\r\n\r\n"
  let clean := lit "POST /api/dht/clean/expiry HTTP/1.1\r\n\r\n"
  have hserving : start.Serving := Running.serving_started _
  have hstart : Running.Reachable shardFraming sys shardNlohmann router Eq (.empty []) start :=
    .refl
  obtain ⟨_, s, stored, cleaned, hs₁, hs, -, hexchanges, -⟩ :=
    hserving.exists_exchanges_of_check (fun _ => rfl) hstart store clean (by rfl) (by rfl)
    (fun _ _ _ _ => True) (by decide +kernel)
  obtain ⟨timed, htimed, -, htables, -⟩ := tables_of_exchanges hstart (hs₁.trans hs)
  obtain ⟨⟨x, first⟩, _, rfl, hx, hrest⟩ :=
    List.map_eq_cons_iff.1 (htimed.symm.trans hexchanges)
  obtain ⟨⟨y, second⟩, _, rfl, hy, hlast⟩ := List.map_eq_cons_iff.1 hrest
  obtain rfl := List.map_eq_nil_iff.1 hlast
  obtain rfl := hx
  obtain rfl := hy
  have hcall : Router.callOf shardNlohmann (shardFraming.decode store) (sys.now first)
      = some (.storeEntry shardEntry) := by
    rw [Router.callOf, if_pos (by decide), show (shardFraming.decode store).body
      = (sampleStore shardBody.1).body from rfl, decode_shardBody]
  refine ⟨s, hs₁.trans hs, by rw [hexchanges]; rfl, htables.trans ?_⟩
  rw [callsOf, List.filterMap_cons, Exchange.callAt, if_pos ⟨rfl, rfl⟩]
  dsimp only
  rw [hcall]
  rfl

end PacPrism
