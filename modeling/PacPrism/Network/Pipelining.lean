import PacPrism.Console.Disk
import PacPrism.Foundations.Runs
import PacPrism.Network.Transmission

/-!
# Network/Pipelining — requests back to back on one connection

`response_sender` starts the next read with a new buffer.  What the last read had received beyond
its request is in the old one, so requests survive exactly where the network happens to cut the
stream between them.
-/

namespace PacPrism

open Framing Runs

variable {ρ : Type} {framing : Framing Request} {service : Service ρ}

/-! ## Runs of a connection -/

namespace Connection

/-- Steps on which nothing fails. -/
abbrev SmoothReaches (framing : Framing Request) (service : Service ρ) :
    Connection ρ → Connection ρ → Prop :=
  Reaches (Step framing service) fun event => event.smooth = true

/-- As long as nothing fails, nothing more happens. -/
abbrev Quiescent (framing : Framing Request) (service : Service ρ) : Connection ρ → Prop :=
  Stuck (Step framing service) fun event => event.smooth = true

/-- The requests are handled in order and from their first byte on, and all of them once nothing
more happens. -/
def InOrder (framing : Framing Request) (service : Service ρ) (requests : List Bytes)
    (c : Connection ρ) : Prop :=
  c.handled <+: positions 0 requests ∧
    (Quiescent framing service c → c.handled = positions 0 requests)

/-- The steps a connection can still take: three for each delivery to come, and those that an
operation under way leads to without one. -/
def work (c : Connection ρ) : Nat :=
  3 * c.incoming.length + match c.pending with
    | .read [] => 0
    | .read (_ :: _) => 2
    | .write _ => 1
    | .none => 0

theorem work_le_of_read {c : Connection ρ} {buffer : Bytes} (hpending : c.pending = .read buffer) :
    c.work ≤ 3 * c.incoming.length + 2 := by
  rw [work, hpending]
  cases buffer <;> simp

theorem work_of_read {c : Connection ρ} {buffer : Bytes} (hpending : c.pending = .read buffer)
    (hne : buffer ≠ []) : c.work = 3 * c.incoming.length + 2 := by
  obtain ⟨b, buffer, rfl⟩ := List.exists_cons_of_ne_nil hne
  rw [work, hpending]

theorem ne_nil_of_scan {buffer : Bytes} (h : framing.scan buffer ≠ .needMore) : buffer ≠ [] := by
  rintro rfl
  exact h framing.scan_nil

variable (framing service) in
/-- **A connection on which nothing fails comes to rest.** -/
theorem exists_quiescent (c : Connection ρ) :
    ∃ c', SmoothReaches framing service c c' ∧ Quiescent framing service c' := by
  refine exists_reaches_stuck work (fun c event c' hsmooth hstep => ?_) c
  cases hstep with
  | receive hpending hmore hincoming =>
    refine (work_le_of_read rfl).trans_lt ?_
    rw [work, hincoming, List.length_cons]
    dsimp only
    omega
  | request hpending hcomplete =>
    rw [work_of_read hpending (ne_nil_of_scan (hcomplete.trans_ne nofun)), work]
    dsimp only
    omega
  | reject _ hpending hmalformed =>
    rw [work_of_read hpending (ne_nil_of_scan (hmalformed.trans_ne nofun)), work]
    dsimp only
    omega
  | @write response hpending =>
    rw [work, work, hpending]
    cases hkeep : service.keepAlive response <;> simp
  | failRead _ hsocket => exact absurd (of_decide_eq_true hsmooth) hsocket
  | failWrite | throw => cases hsmooth

/-! ## What a connection has seen of its stream -/

/-- The requests `before` are handled, the segments `taken` are read, and `buffer` is what they hold
beyond the requests. -/
structure Tracks (segments before taken : List Bytes) (buffer : Bytes) (c : Connection ρ) :
    Prop where
  handled : c.handled = positions 0 before
  delivered : c.delivered = (before.flatten ++ buffer).length
  cut : taken ++ c.incoming = segments
  taken : taken.flatten = before.flatten ++ buffer

theorem tracks_accepted (segments : List Bytes) :
    (Connection.accepted segments : Connection ρ).Tracks segments [] [] [] where
  handled := rfl
  delivered := rfl
  cut := rfl
  taken := rfl

namespace Tracks

variable {segments before taken rest : List Bytes} {buffer segment : Bytes} {c : Connection ρ}

/-- One more segment. -/
theorem receive (h : c.Tracks segments before taken buffer)
    (hincoming : c.incoming = segment :: rest) :
    Tracks segments before (taken ++ [segment]) (buffer ++ segment) ({ c with
      incoming := rest
      pending := .read (buffer ++ segment)
      delivered := c.delivered + segment.length } : Connection ρ) where
  handled := h.handled
  delivered := by
    dsimp only
    rw [h.delivered, ← List.append_assoc, ← List.length_append]
  cut := by rw [← h.cut, hincoming, List.append_assoc, List.singleton_append]
  taken := by rw [List.flatten_concat, h.taken, List.append_assoc]

/-- One more request, from the front of the buffer. -/
theorem request {w : Bytes} (h : c.Tracks segments before taken (w ++ buffer))
    (pending : Pending ρ) :
    Tracks segments (before ++ [w]) taken buffer ({ c with
      pending := pending
      handled := c.handled ++ [(c.delivered - (w ++ buffer).length, w)] } : Connection ρ) where
  handled := by
    rw [positions_append, h.handled, h.delivered, List.length_append, Nat.add_sub_cancel]
    simp [positions]
  delivered := by rw [h.delivered, List.flatten_concat, List.append_assoc]
  cut := h.cut
  taken := by rw [h.taken, List.flatten_concat, List.append_assoc]

/-- The pending operation is no part of it. -/
theorem withPending (h : c.Tracks segments before taken buffer) (pending : Pending ρ) :
    Tracks segments before taken buffer { c with pending := pending } where
  handled := h.handled
  delivered := h.delivered
  cut := h.cut
  taken := h.taken

/-- The buffer is the front of what is left of the requests. -/
theorem buffer_append {after : List Bytes} (h : c.Tracks segments before taken buffer)
    (hstream : segments.flatten = (before ++ after).flatten) :
    buffer ++ c.incoming.flatten = after.flatten := by
  rw [← h.cut, List.flatten_append, List.flatten_append, h.taken, List.append_assoc] at hstream
  exact List.append_cancel_left hstream

end Tracks

/-! ## Where segments end with the requests -/

/-- A read holds no more than the next of the requests to come, a write answers the last one. -/
def Fits (service : Service ρ) (after : List Bytes) (buffer : Bytes) : Pending ρ → Prop
  | .read b => b = buffer ∧ ∀ w ∈ after.head?, buffer <+: w
  | .write response => buffer = [] ∧ service.keepAlive response = true
  | .none => False

/-- Nothing of the stream is lost. -/
def Intact (service : Service ρ) (segments requests : List Bytes) (c : Connection ρ) : Prop :=
  ∃ before after taken buffer, before ++ after = requests ∧
    c.Tracks segments before taken buffer ∧ Fits service after buffer c.pending

section Cut

variable {segments requests : List Bytes} {c c' : Connection ρ}

theorem intact_accepted : Intact service segments requests (Connection.accepted segments) :=
  ⟨[], requests, [], [], rfl, tracks_accepted segments, rfl, fun _ _ => List.nil_prefix⟩

/-- A buffer that is the front of the next request is all of it, or waits for the rest. -/
theorem eq_cons_or_needMore {after : List Bytes} {buffer rest : Bytes}
    (hcomplete : ∀ w ∈ after, framing.Complete w) (hrest : buffer ++ rest = after.flatten)
    (hfits : ∀ w ∈ after.head?, buffer <+: w) :
    (∃ ws, after = buffer :: ws)
      ∨ framing.scan buffer = .needMore ∧ ∀ w ∈ after.head?, buffer.length < w.length := by
  obtain - | ⟨w, ws⟩ := after
  · obtain ⟨rfl, -⟩ := List.append_eq_nil_iff.1 hrest
    exact .inr ⟨framing.scan_nil, fun _ h => nomatch h⟩
  · rcases (hcomplete w List.mem_cons_self).eq_or_needMore (hfits w rfl) with rfl | ⟨hlt, hmore⟩
    · exact .inl ⟨ws, rfl⟩
    · refine .inr ⟨hmore, ?_⟩
      rintro _ ⟨⟩
      exact hlt

/-- A step on which nothing fails loses nothing. -/
theorem Intact.step {event : Event} (hcomplete : ∀ w ∈ requests, framing.Complete w)
    (hkeep : ∀ w ∈ requests, service.KeepsAlive (framing.decode w))
    (hstream : segments.flatten = requests.flatten) (hcut : CutAtMessages segments requests)
    (hsmooth : event.smooth = true) (hstep : Step framing service c event c')
    (h : Intact service segments requests c) : Intact service segments requests c' := by
  obtain ⟨before, after, taken, buffer, rfl, htracks, hfits⟩ := h
  have hrest := htracks.buffer_append hstream
  have hafter : ∀ w ∈ after, framing.Complete w := fun w hw =>
    hcomplete w (List.mem_append_right _ hw)
  cases hstep with
  | receive hpending hmore hincoming =>
    rw [hpending] at hfits
    obtain ⟨rfl, hfits⟩ := hfits
    rcases eq_cons_or_needMore hafter hrest hfits with ⟨ws, rfl⟩ | ⟨-, hshort⟩
    · exact nomatch (hafter _ List.mem_cons_self).symm.trans hmore
    · refine ⟨before, after, _, _, rfl, htracks.receive hincoming, rfl, fun w hw => ?_⟩
      have hlt := hshort w hw
      obtain ⟨after, rfl⟩ := List.head?_eq_some_iff.1 hw
      rw [hincoming, List.flatten_cons, ← List.append_assoc, List.flatten_cons] at hrest
      refine List.prefix_of_prefix_length_le ⟨_, hrest⟩ (List.prefix_append _ _) ?_
      rw [← htracks.cut, hincoming] at hcut
      exact hcut.length_le htracks.taken hlt
  | @request buffer n response hpending hscan hanswer =>
    rw [hpending] at hfits
    obtain ⟨rfl, hfits⟩ := hfits
    rcases eq_cons_or_needMore hafter hrest hfits with ⟨ws, rfl⟩ | ⟨hmore, -⟩
    · obtain rfl : buffer.length = n :=
        Scan.complete.inj ((hafter _ List.mem_cons_self).symm.trans hscan)
      rw [List.take_length] at hanswer ⊢
      rw [← List.append_nil buffer] at htracks
      have hnext := htracks.request (.write response)
      rw [List.append_nil] at hnext
      exact ⟨before ++ [buffer], ws, taken, [], by rw [← List.append_cons], hnext, rfl,
        (hkeep buffer (List.mem_append_right _ List.mem_cons_self)).2 response hanswer⟩
    · exact nomatch hmore.symm.trans hscan
  | @reject buffer _ hpending hmalformed =>
    rw [hpending] at hfits
    obtain ⟨rfl, hfits⟩ := hfits
    rcases eq_cons_or_needMore hafter hrest hfits with ⟨ws, rfl⟩ | ⟨hmore, -⟩
    · exact nomatch (hafter _ List.mem_cons_self).symm.trans hmalformed
    · exact nomatch hmore.symm.trans hmalformed
  | @write response hpending =>
    rw [hpending] at hfits
    obtain ⟨rfl, halive⟩ := hfits
    rw [halive, if_pos rfl]
    exact ⟨before, after, taken, [], rfl, htracks.withPending _, rfl, fun _ _ => List.nil_prefix⟩
  | failRead _ hsocket => exact absurd (of_decide_eq_true hsmooth) hsocket
  | failWrite | throw => cases hsmooth

/-- Where nothing is lost and nothing more happens, all requests are handled. -/
theorem Intact.handled_of_quiescent (hcomplete : ∀ w ∈ requests, framing.Complete w)
    (hkeep : ∀ w ∈ requests, service.KeepsAlive (framing.decode w))
    (hstream : segments.flatten = requests.flatten) (h : Intact service segments requests c)
    (hquiet : Quiescent framing service c) : c.handled = positions 0 requests := by
  obtain ⟨before, after, taken, buffer, rfl, htracks, hfits⟩ := h
  have hrest := htracks.buffer_append hstream
  have hafter : ∀ w ∈ after, framing.Complete w := fun w hw =>
    hcomplete w (List.mem_append_right _ hw)
  cases hpending : c.pending with
  | none => exact (hpending ▸ hfits).elim
  | write response => exact (hquiet .written _ rfl (.write hpending)).elim
  | read b =>
    rw [hpending] at hfits
    obtain ⟨rfl, hfits⟩ := hfits
    rcases eq_cons_or_needMore hafter hrest hfits with ⟨ws, rfl⟩ | ⟨hmore, hshort⟩
    · obtain ⟨response, hanswer⟩ := (hkeep b (List.mem_append_right _ List.mem_cons_self)).1
      rw [← List.take_length (l := b)] at hanswer
      have hscan := hafter b List.mem_cons_self
      exact (hquiet .requested _ rfl (.request hpending hscan hanswer)).elim
    · cases hincoming : c.incoming with
      | cons segment rest =>
        exact (hquiet .received _ rfl (.receive hpending hmore hincoming)).elim
      | nil =>
        obtain - | ⟨w, ws⟩ := after
        · rw [htracks.handled, List.append_nil]
        · have hlt := hshort w rfl
          have hlen := congrArg List.length hrest
          rw [hincoming, List.flatten_nil, List.append_nil, List.flatten_cons,
            List.length_append] at hlen
          omega

/-- **Segments that end where requests end lose none.** -/
theorem inOrder_of_cutAtMessages (hcomplete : ∀ w ∈ requests, framing.Complete w)
    (hkeep : ∀ w ∈ requests, service.KeepsAlive (framing.decode w))
    (hstream : segments.flatten = requests.flatten) (hcut : CutAtMessages segments requests)
    (hreach : SmoothReaches framing service (.accepted segments) c) :
    InOrder framing service requests c := by
  have hintact : Intact service segments requests c :=
    hreach.invariant (fun _ _ _ hsmooth hstep =>
      Intact.step hcomplete hkeep hstream hcut hsmooth hstep) intact_accepted
  refine ⟨?_, hintact.handled_of_quiescent hcomplete hkeep hstream⟩
  obtain ⟨before, after, taken, buffer, rfl, htracks, -⟩ := hintact
  rw [htracks.handled, positions_append]
  exact List.prefix_append _ _

end Cut

/-! ## Where a segment goes on behind a request -/

/-- What was handled is `first`, and all else began at `start` or behind. -/
structure Behind (first : List (Nat × Bytes)) (start : Nat) (c : Connection ρ) : Prop where
  handled : ∃ later, c.handled = first ++ later ∧ ∀ entry ∈ later, start ≤ entry.1
  delivered : start ≤ c.delivered
  buffered : ∀ buffer, c.pending = .read buffer → start + buffer.length ≤ c.delivered

section Lost

variable {segments before after taken : List Bytes} {buffer w : Bytes} {c c' : Connection ρ}

theorem Behind.step {first : List (Nat × Bytes)} {start : Nat} {event : Event}
    (hstep : Step framing service c event c') (h : Behind first start c) :
    Behind first start c' := by
  have hnext : ∀ {buffer request : Bytes}, c.pending = .read buffer →
      ∃ later, c.handled ++ [(c.delivered - buffer.length, request)] = first ++ later ∧
        ∀ entry ∈ later, start ≤ entry.1 := by
    intro buffer request hpending
    obtain ⟨later, heq, hlater⟩ := h.handled
    have := h.buffered buffer hpending
    refine ⟨later ++ [(c.delivered - buffer.length, request)], by rw [heq, List.append_assoc], ?_⟩
    intro entry hentry
    rcases List.mem_append.1 hentry with hentry | hentry
    · exact hlater entry hentry
    · obtain rfl := List.mem_singleton.1 hentry
      dsimp only
      omega
  cases hstep with
  | @receive buffer segment rest hpending hmore hincoming =>
    have := h.buffered buffer hpending
    refine ⟨h.handled, h.delivered.trans (Nat.le_add_right _ _), ?_⟩
    rintro _ ⟨⟩
    rw [List.length_append]
    dsimp only
    omega
  | request hpending => exact ⟨hnext hpending, h.delivered, nofun⟩
  | throw hpending => exact ⟨hnext hpending, h.delivered, nofun⟩
  | @write response hpending =>
    refine ⟨h.handled, h.delivered, fun buffer hread => ?_⟩
    cases hkeep : service.keepAlive response with
    | true =>
      rw [hkeep] at hread
      cases hread
      exact h.delivered
    | false =>
      rw [hkeep] at hread
      cases hread
  | reject | failRead | failWrite => exact ⟨h.handled, h.delivered, nofun⟩

variable (framing service) in
/-- **What a new buffer leaves behind is lost**: the next request begins with the bytes beyond the
last one, and everything handled from now on begins after them. -/
theorem exists_not_inOrder (hstream : segments.flatten = (before ++ after).flatten)
    (htracks : c.Tracks segments before taken buffer) (hpending : c.pending = .read [])
    (hbuffer : buffer ≠ []) :
    ∃ c', SmoothReaches framing service c c' ∧
      ¬ InOrder framing service (before ++ after) c' := by
  obtain ⟨c', hreach, hquiet⟩ := exists_quiescent framing service c
  refine ⟨c', hreach, fun hinOrder => ?_⟩
  have hbehind : Behind (positions 0 before) c.delivered c :=
    { handled := ⟨[], by rw [htracks.handled, List.append_nil], nofun⟩
      delivered := le_rfl
      buffered := fun b hb => by cases hpending.symm.trans hb; exact le_rfl }
  obtain ⟨later, heq, hlater⟩ :=
    (hreach.invariant (fun _ _ _ _ hstep => Behind.step hstep) hbehind).handled
  rw [hinOrder.2 hquiet, positions_append] at heq
  obtain rfl := List.append_cancel_left heq
  have hrest := htracks.buffer_append hstream
  obtain - | ⟨w, after⟩ := after
  · exact hbuffer (List.append_eq_nil_iff.1 hrest).1
  · have hle := hlater (0 + before.flatten.length, w) (by simp [positions])
    have hlen := List.length_pos_of_ne_nil hbuffer
    rw [htracks.delivered, List.length_append] at hle
    dsimp only at hle
    omega

variable (service) in
/-- A read goes on until its buffer begins with the next request. -/
theorem exists_buffered (hw : framing.Complete w)
    (hstream : segments.flatten = (before ++ w :: after).flatten)
    (htracks : c.Tracks segments before taken buffer) (hpending : c.pending = .read buffer) :
    ∃ c' taken surplus, SmoothReaches framing service c c' ∧
      c'.Tracks segments before taken (w ++ surplus) ∧ c'.pending = .read (w ++ surplus) := by
  have hrest := htracks.buffer_append hstream
  induction hincoming : c.incoming generalizing c taken buffer with
  | nil =>
    rw [hincoming, List.flatten_nil, List.append_nil, List.flatten_cons] at hrest
    obtain rfl := hrest
    exact ⟨c, taken, _, .refl, htracks, hpending⟩
  | cons segment rest ih =>
    by_cases hle : w.length ≤ buffer.length
    · obtain ⟨surplus, rfl⟩ : w <+: buffer :=
        List.prefix_of_prefix_length_le (List.prefix_append w after.flatten) ⟨_, hrest⟩ hle
      exact ⟨c, taken, surplus, .refl, htracks, hpending⟩
    · have hfront : buffer <+: w :=
        List.prefix_of_prefix_length_le ⟨_, hrest⟩ (List.prefix_append w after.flatten)
          (Nat.le_of_not_le hle)
      have hmore := hw.scan_of_prefix hfront (Nat.lt_of_not_le hle)
      have hreceive : Step framing service c .received _ := .receive hpending hmore hincoming
      have hnext := htracks.receive hincoming
      obtain ⟨c', taken, surplus, hreach, htracks, hpending⟩ :=
        ih hnext rfl (hnext.buffer_append hstream) rfl
      exact ⟨c', taken, surplus, hreach.head ⟨_, rfl, hreceive⟩, htracks, hpending⟩

/-- One round: the next request is read and answered, and the next read starts with nothing. -/
theorem exists_round (hw : framing.Complete w) (hkeep : service.KeepsAlive (framing.decode w))
    (hstream : segments.flatten = (before ++ w :: after).flatten)
    (htracks : c.Tracks segments before taken []) (hpending : c.pending = .read []) :
    ∃ c' taken surplus, SmoothReaches framing service c c' ∧
      c'.Tracks segments (before ++ [w]) taken surplus ∧ c'.pending = .read [] := by
  obtain ⟨d, taken, surplus, hreach, htracks, hpending⟩ :=
    exists_buffered service hw hstream htracks hpending
  obtain ⟨response, hanswer⟩ := hkeep.1
  have halive := hkeep.2 response hanswer
  have htake : (w ++ surplus).take w.length = w := List.take_left
  rw [← htake] at hanswer
  have hrequest := Step.request hpending (hw.scan_append surplus) hanswer
  have hwrite : Step framing service { d with
      pending := .write response
      handled := d.handled ++ [(d.delivered - (w ++ surplus).length, w)] } .written _ := .write rfl
  rw [htake] at hrequest
  rw [halive, if_pos rfl] at hwrite
  exact ⟨_, taken, surplus, (hreach.tail ⟨_, rfl, hrequest⟩).tail ⟨_, rfl, hwrite⟩,
    htracks.request (.read []), rfl⟩

end Lost

/-- **Only segments that end where requests end lose none.** -/
theorem cutAtMessages_of_inOrder {segments requests : List Bytes}
    (hcomplete : ∀ w ∈ requests, framing.Complete w)
    (hkeep : ∀ w ∈ requests, service.KeepsAlive (framing.decode w))
    (hstream : segments.flatten = requests.flatten)
    (hall : ∀ c, SmoothReaches framing service (.accepted segments) c →
      InOrder framing service requests c) : CutAtMessages segments requests := by
  have hrounds : ∀ before after, before ++ after = requests →
      ∃ c taken, SmoothReaches framing service (.accepted segments) c ∧
        c.Tracks segments before taken [] ∧ c.pending = .read [] := by
    intro before
    induction before using List.reverseRecOn with
    | nil => exact fun _ _ => ⟨_, [], .refl, tracks_accepted segments, rfl⟩
    | append_singleton before w ih =>
      rintro after rfl
      rw [List.append_assoc, List.singleton_append] at hstream
      obtain ⟨c, taken, hreach, htracks, hpending⟩ := ih (w :: after) (by simp)
      obtain ⟨c', taken, surplus, hround, htracks, hpending⟩ :=
        exists_round (hcomplete w (by simp)) (hkeep w (by simp)) hstream htracks hpending
      rcases eq_or_ne surplus [] with rfl | hsurplus
      · exact ⟨c', taken, hreach.trans hround, htracks, hpending⟩
      · rw [List.append_cons] at hstream
        obtain ⟨d, hlost, hnot⟩ :=
          exists_not_inOrder framing service hstream htracks hpending hsurplus
        exact absurd (hall d ((hreach.trans hround).trans hlost)) hnot
  rintro before ⟨after, rfl⟩
  obtain ⟨c, taken, -, htracks, -⟩ := hrounds before after rfl
  exact ⟨taken, ⟨_, htracks.cut⟩, htracks.taken.trans (List.append_nil _)⟩

end Connection

/-! ## On the server -/

namespace ServerTrans

/-- Whatever else happens on the server: as long as nothing fails on a connection that is sent the
requests in these segments, they are handled in order. -/
def HandlesInOrder (framing : Framing Request) (service : Service ρ)
    (requests segments : List Bytes) : Prop :=
  ∀ (s : ServerTrans ρ) (i : Nat) (c : Connection ρ),
    Reaches (Step framing service) (Completion.SmoothOn i) {} s → s.connections[i]? = some c →
      c.stream = segments → c.InOrder framing service requests

theorem stream_step {c c' : Connection ρ} {event : Event}
    (h : Connection.Step framing service c event c') : c'.stream = c.stream := by
  cases h <;> rfl

/-- A connection is where its own steps have led it. -/
theorem smoothReaches_connection {s : ServerTrans ρ} {i : Nat} {c : Connection ρ}
    (h : Reaches (Step framing service) (Completion.SmoothOn i) {} s)
    (hc : s.connections[i]? = some c) :
    Connection.SmoothReaches framing service (.accepted c.stream) c := by
  refine h.invariant (I := fun s => ∀ c, s.connections[i]? = some c →
    Connection.SmoothReaches framing service (.accepted c.stream) c) ?_ nofun c hc
  intro s completion s' hsmooth hstep hs c hc
  cases hstep with
  | accept stream hrunning haccepting =>
    rcases lt_or_ge i s.connections.length with hlt | hge
    · exact hs c ((List.getElem?_append_left hlt).symm.trans hc)
    · rw [List.getElem?_append_right hge, List.getElem?_singleton] at hc
      obtain rfl := Option.some.inj (Option.ite_none_right_eq_some.1 hc).2
      exact .refl
  | failAccept => exact hs c hc
  | @complete j d d' event hrunning hconnection hstep =>
    rcases eq_or_ne j i with rfl | hne
    · obtain ⟨hlt, -⟩ := List.getElem?_eq_some_iff.1 hconnection
      rw [List.getElem?_set_self hlt] at hc
      obtain rfl := Option.some.inj hc
      rw [stream_step hstep]
      exact (hs d hconnection).tail ⟨event, hsmooth event rfl, hstep⟩
    · exact hs c ((List.getElem?_set_ne hne).symm.trans hc)

theorem pending_of_step {c c' : Connection ρ} {event : Event}
    (h : Connection.Step framing service c event c') : c.pending ≠ .none := by
  cases h <;> simp_all

/-- If nothing has failed, an exception leaves no handler but one that has closed its connection. -/
theorem escapes_of_smooth {c c' : Connection ρ} {event : Event} (hsmooth : event.smooth = true)
    (h : Connection.Step framing service c event c') :
    event.escapes = false ∨ c'.pending = .none := by
  cases h with
  | receive | request | write => exact .inl rfl
  | reject => exact .inr rfl
  | failRead _ hsocket => exact absurd (of_decide_eq_true hsmooth) hsocket
  | failWrite | throw => cases hsmooth

/-- What a connection can do, it can do on the server. -/
theorem exists_server {stream : List Bytes} {c : Connection ρ}
    (h : Connection.SmoothReaches framing service (.accepted stream) c) :
    ∃ s : ServerTrans ρ, Reaches (Step framing service) (Completion.SmoothOn 0) {} s ∧
      s.connections = [c] ∧ (s.escaped = false ∨ c.pending = .none) := by
  induction h with
  | refl => exact ⟨_, .single ⟨.accepted, nofun, .accept stream rfl Nat.one_pos⟩, rfl, .inl rfl⟩
  | @tail c c' _ hstep ih =>
    obtain ⟨event, hsmooth, hstep⟩ := hstep
    obtain ⟨s, hreach, hconnections, hrunning⟩ := ih
    have hcomplete := Step.complete (i := 0) (hrunning.resolve_right (pending_of_step hstep))
      (by rw [hconnections]; rfl) hstep
    refine ⟨_, hreach.tail ⟨_, ?_, hcomplete⟩, by rw [hconnections]; rfl,
      escapes_of_smooth hsmooth hstep⟩
    rintro _ ⟨⟩
    exact hsmooth

/-- **Connections do not disturb each other**: the server handles the requests in order exactly if
every run of a connection alone does. -/
theorem handlesInOrder_iff_connection {requests segments : List Bytes} :
    HandlesInOrder framing service requests segments ↔
      ∀ c, Connection.SmoothReaches framing service (.accepted segments) c →
        c.InOrder framing service requests := by
  have hstream {c : Connection ρ}
      (h : Connection.SmoothReaches framing service (.accepted segments) c) : c.stream = segments :=
    h.invariant (I := fun c => c.stream = segments)
      (fun _ _ _ _ hstep hc => (stream_step hstep).trans hc) rfl
  constructor
  · intro h c hreach
    obtain ⟨s, hserver, hconnections, -⟩ := exists_server hreach
    exact h s 0 c hserver (by rw [hconnections]; rfl) (hstream hreach)
  · rintro h s i c hreach hc rfl
    exact h c (smoothReaches_connection hreach hc)

/-- **Which pipelined requests are handled**: all of them, in order and each once, exactly if the
network cuts the stream wherever a request ends. -/
theorem handlesInOrder_iff (framing : Framing Request) (service : Service ρ)
    (requests segments : List Bytes) (hcomplete : ∀ w ∈ requests, framing.Complete w)
    (hkeep : ∀ w ∈ requests, service.KeepsAlive (framing.decode w))
    (hstream : segments.flatten = requests.flatten) :
    HandlesInOrder framing service requests segments ↔ CutAtMessages segments requests := by
  rw [handlesInOrder_iff_connection]
  constructor
  · exact Connection.cutAtMessages_of_inOrder hcomplete hkeep hstream
  · exact fun hcut c hreach =>
      Connection.inOrder_of_cutAtMessages hcomplete hkeep hstream hcut hreach

end ServerTrans

/-! ## The greeting -/

/-- A client that names no file is greeted, and its connection is kept. -/
theorem Router.keepsAlive_of_greeting {σ : Type} {sys : System σ} {nlohmann : Nlohmann}
    {router : Router} {request : Request} (world : σ)
    (hplain : Validator.validateRequest request = .plainClient)
    (hpath : plainRequestPath request.target = none) (hversion : 11 ≤ request.version) :
    (router.service sys nlohmann).KeepsAlive request := by
  have hrun (s : Server σ) : router.globalRouter sys nlohmann request s
      = .ok (router.defaultResponseBuilder sys (lit "Hello from pacPrism!") request.version .ok)
          s := by
    rw [globalRouter, hplain]
    dsimp only
    rw [plainResponseRouter_eq, hpath]
    rfl
  constructor
  · refine ⟨_, ?_, { world := world }, _, hrun _⟩
    rfl
  · rintro response ⟨-, s, s', h⟩
    cases (hrun s).symm.trans h
    exact decide_eq_true hversion

namespace ServerTrans

/-- A request for the greeting. -/
def greetingRequest : Bytes := lit "GET / HTTP/1.1\r\n\r\n"

/-- Requests with a GET line and no fields. -/
def getFraming : Framing Request :=
  ofHeaders fun w => ⟨.get, (w.drop 4).takeWhile (· ≠ 0x20), 11, [], []⟩

/-- A router with nothing cached and upstream out of reach. -/
def offlineService : Service RouterResponse :=
  Router.service (Disk.system (.tree []) (.offline .current)) .withoutParser
    ⟨⟨{}, lit "./cache", lit "ftp.debian.org"⟩, lit "0.1.0"⟩

theorem keepsAlive_greetings : ∀ w ∈ [greetingRequest, greetingRequest],
    offlineService.KeepsAlive (getFraming.decode w) := by
  have hgreeting : offlineService.KeepsAlive (getFraming.decode greetingRequest) :=
    Router.keepsAlive_of_greeting (.empty [] : TreeDisk) (by decide) (by decide) (by decide)
  simpa using hgreeting

theorem handlesInOrder_greetings :
    HandlesInOrder getFraming offlineService [greetingRequest, greetingRequest]
      [greetingRequest.take 7, greetingRequest.drop 7, greetingRequest] :=
  (handlesInOrder_iff getFraming offlineService _ _ (by decide) keepsAlive_greetings
    (by decide)).2 (by decide)

/-- Both requests in one segment: the second is lost. -/
theorem not_handlesInOrder_greetings :
    ¬ HandlesInOrder getFraming offlineService [greetingRequest, greetingRequest]
      [greetingRequest ++ greetingRequest] := by
  rw [handlesInOrder_iff_connection]
  intro h
  have hcut := Connection.cutAtMessages_of_inOrder (by decide) keepsAlive_greetings (by decide) h
  exact absurd hcut (by decide)

end ServerTrans

end PacPrism
