/-
  CommandShell.Proofs.Pipeline.Delivery — what the stages of a pipeline read.

  A player writes its text to the pipe behind it when it starts, and reads the pipe before it to the end when it is
  waited for. Three facts carry the data along:
  - `startFrom_ready`: when the starts are over, each pipe holds the text of the player before it, if that player
    has been started well and does not redirect its output, and nothing otherwise.
  - `closeEnds_ready`: when a player has given back its ends, nobody can write into the pipe behind it any more, and
    the pipe still holds what was written to it.
  - `waitFrom_served`: so each wait reads to the end, and reads what its left neighbour wrote.
  `waits_deliver` puts them together for a whole run.
-/

import CommandShell.Proofs.Pipeline.Custody

namespace CommandShell

namespace Pipes

theorem getElem?_write {ps : Pipes} {k : Nat} {p : Pipe} (hp : ps[k]? = some p) (hr : 0 < p.readers) (data : Bytes)
    (j : Nat) : (ps.write ⟨k, .write⟩ data).2[j]? = if j = k then some { p with data := p.data ++ data } else ps[j]? := by
  unfold write
  by_cases hd : data.isEmpty = true
  · have : data = [] := by simpa using hd
    subst this
    by_cases hj : j = k
    · subst hj
      simp [hp]
    · simp [hj]
  · have : p.readers ≠ 0 := by omega
    by_cases hj : j = k
    · subst hj
      simp [hd, hp, this]
    · simp [hd, hp, this, Ne.symm hj, hj]

theorem getElem?_read {ps : Pipes} {k : Nat} {p : Pipe} (hp : ps[k]? = some p) :
    (ps.read ⟨k, .read⟩).1 = .ok p.data ∧ ∀ j, j ≠ k → (ps.read ⟨k, .read⟩).2[j]? = ps[j]? := by
  unfold read
  refine ⟨by simp [hp], ?_⟩
  intro j hj
  simp [hp, Ne.symm hj]

theorem getElem?_release_ne (ps : Pipes) {e : PipeEnd} {j : Nat} (h : j ≠ e.pipe) : (ps.release e)[j]? = ps[j]? := by
  simp [release, Ne.symm h]

theorem getElem?_release_writer {ps : Pipes} {k : Nat} {p : Pipe} (hp : ps[k]? = some p) :
    (ps.release ⟨k, .write⟩)[k]? = some { p with writers := p.writers - 1 } := by
  simp [release, hp]

end Pipes

namespace Rehearsal

open Pipeline Surroundings StageLike

/-! ## Readings -/

/-- A text that was read to its end, or a reading that never ends. -/
def Event.isReading : Event → Bool
  | .read _ _ => true
  | .blocked _ => true
  | _ => false

/-- What the players have read so far. -/
def Book.readings (b : Book) : List Event := b.events.filter Event.isReading

/-- Has stage `i` been started, and well? -/
def startedWell (calls : List Call) (i : Nat) : Bool :=
  calls.any fun
    | .start k none => k == i
    | _ => false

/-- What player `i` wrote to the pipe behind it: its text, if it was started well and does not redirect its output. -/
def sent (players : List Player) (calls : List Call) (i : Nat) : Bytes :=
  match players[i]? with
  | some p => if p.redirected || !startedWell calls i then [] else (p.emit.map Bytes.ofString).getD []
  | none => []

/-- What a call gives to read: a wait for a player behind the first one, the text of the player before it. -/
def delivery (players : List Player) (text : Nat → Bytes) : Call → Option Event
  | .wait (i + 1) _ => some (.read ((players[i + 1]?.map Player.name).getD "") (text i))
  | _ => none

theorem startedWell_iff {calls : List Call} {i : Nat} : startedWell calls i = true ↔ .start i none ∈ calls := by
  unfold startedWell
  rw [List.any_eq_true]
  constructor
  · rintro ⟨call, hmem, h⟩
    split at h
    · rwa [beq_iff_eq.mp h] at hmem
    · cases h
  · intro hmem
    exact ⟨_, hmem, by simp⟩

theorem startedWell_eq_false {calls : List Call} (h : ∀ i, .start i none ∉ calls) (k : Nat) : startedWell calls k = false := by
  rw [← Bool.not_eq_true, startedWell_iff]
  exact h k

theorem startedWell_append (a b : List Call) (i : Nat) :
    startedWell (a ++ b) i = (startedWell a i || startedWell b i) := List.any_append

section Run

variable (players : List Player) (base : Nat)

/-- From `t` to `t'` the players have read what the calls made in between give them. -/
def Served (text : Nat → Bytes) (t t' : Traced Book) : Prop :=
  ∃ more, t'.calls = t.calls ++ more ∧ t'.world.readings = t.world.readings ++ more.filterMap (delivery players text)

variable {players base} {text : Nat → Bytes} {t t' t'' : Traced Book}

theorem Served.refl : Served players text t t := ⟨[], by simp, by simp⟩

theorem Served.trans (h : Served players text t t') (h' : Served players text t' t'') : Served players text t t'' := by
  obtain ⟨a, hc, hr⟩ := h
  obtain ⟨b, hc', hr'⟩ := h'
  refine ⟨a ++ b, by rw [hc', hc, List.append_assoc], ?_⟩
  rw [hr', hr, List.filterMap_append, List.append_assoc]

/-- A call that reads nothing. -/
theorem Served.quiet {more : List Call} (hc : t'.calls = t.calls ++ more)
    (hnone : more.filterMap (delivery players text) = []) (hr : t'.world.readings = t.world.readings) :
    Served players text t t' :=
  ⟨more, hc, by rw [hnone, hr, List.append_nil]⟩

/-! ## The cast -/

/-- A watched player is the player of its number, with the ends that it was given. -/
def Cast (players : List Player) (p : Watched Player) : Prop :=
  ∃ q, players[p.number]? = some q ∧ p.stage = { q with stdin := p.input, stdout := p.output }

theorem start_same (p : Watched Player) (t : Traced Book) : (start p t).2.1 = p := by
  have h : (p.stage.start t.world).2.1 = p.stage := by
    unfold Player.start
    cases p.stage.startError <;> rfl
  show ({ p with stage := (p.stage.start t.world).2.1 } : Watched Player) = p
  rw [h]

theorem wait_same (p : Watched Player) (t : Traced Book) : (wait p t).2.1 = p := by
  have h : (p.stage.wait t.world).2.1 = p.stage := by
    unfold Player.wait
    cases p.stage.waitError <;> rfl
  show ({ p with stage := (p.stage.wait t.world).2.1 } : Watched Player) = p
  rw [h]

/-- Whatever is asked of a player, it stays the same but for its ends. -/
theorem cast_alike (players : List Player) :
    Alike (fun p p' : Watched Player => p = p' ∧ Cast players p) (fun t t' : Traced Book => t = t') where
  makePipe := by rintro t _ rfl; exact ⟨rfl, rfl⟩
  dropEnd := by rintro t _ e rfl; rfl
  note := by rintro t _ n rfl; rfl
  complain := by rintro t _ style message rfl; rfl
  outputRedirected := by rintro p _ ⟨rfl, -⟩; rfl
  attachInput := by
    rintro p _ t _ e ⟨rfl, q, hq, h⟩ rfl
    exact ⟨⟨rfl, q, hq, congrArg (fun p : Player => { p with stdin := some e }) h⟩, rfl⟩
  attachOutput := by
    rintro p _ t _ e ⟨rfl, q, hq, h⟩ rfl
    exact ⟨⟨rfl, q, hq, congrArg (fun p : Player => { p with stdout := some e }) h⟩, rfl⟩
  start := by
    rintro p _ t _ ⟨rfl, h⟩ rfl
    exact ⟨rfl, ⟨rfl, by rwa [start_same]⟩, rfl⟩
  wait := by
    rintro p _ t _ ⟨rfl, h⟩ rfl
    exact ⟨rfl, ⟨rfl, by rwa [wait_same]⟩, rfl⟩
  detachInput := by
    rintro p _ t _ ⟨rfl, q, hq, h⟩ rfl
    exact ⟨⟨rfl, q, hq, congrArg (fun p : Player => { p with stdin := none }) h⟩, rfl⟩
  detachOutput := by
    rintro p _ t _ ⟨rfl, q, hq, h⟩ rfl
    exact ⟨⟨rfl, q, hq, congrArg (fun p : Player => { p with stdout := none }) h⟩, rfl⟩

theorem cast_watched (hun : Unwired Book players) : ∀ p ∈ watched players, Cast players p := by
  intro p hp
  obtain ⟨i, hi, rfl⟩ := List.mem_mapIdx.mp hp
  have hbare : ∀ q : Player, (q.stdin, q.stdout) = (none, none) → q = { q with stdin := none, stdout := none } := by
    rintro ⟨⟩ h
    cases h
    rfl
  exact ⟨players[i], List.getElem?_eq_getElem hi, hbare _ (hun _ (List.getElem_mem hi))⟩

theorem join_cast (hun : Unwired Book players) (t : Traced Book) : ∀ p ∈ (join (watched players) t).2.1, Cast players p := by
  have h := (cast_alike players).join (List.forall₂_same.mpr fun p hp => ⟨rfl, cast_watched hun p hp⟩) (rfl : t = t)
  intro p hp
  exact (List.forall₂_same.mp h.2.1 p hp).2

/-! ## Joining reads nothing -/

theorem readings_add {e : Event} (h : e.isReading = false) (b : Book) : (b.add e).readings = b.readings := by
  simp [Book.readings, Book.add, h]

theorem readings_dropHeld (e : Option PipeEnd) (b : Book) : (b.dropHeld e).readings = b.readings := by
  cases e <;> rfl

theorem joinFrom_served (rest : List (Watched Player)) : ∀ (i : Nat) (left : Watched Player) (t : Traced Book),
    Served players text t (joinFrom i left rest t).2.2 := by
  induction rest with
  | nil => intro i left t; exact Served.refl
  | cons right rest ih =>
    intro i left t
    rcases hm : makePipe t with ⟨answer, t₁⟩
    obtain ⟨hworld, hcalls⟩ := makePipe_watched hm
    have hmade : Served players text t t₁ := by
      refine Served.quiet hcalls rfl ?_
      have hw : t₁.world = (makePipe t.world).2 := by rw [hworld]
      rw [hw]
      show (Book.makePipe t.world).2.readings = _
      unfold Book.makePipe
      split <;> rfl
    cases answer with
    | error errno =>
      rw [joinFrom_error hm]
      exact hmade
    | ok ends =>
      obtain ⟨reader, writer⟩ := ends
      rw [joinFrom_ok hm]
      have hoffer : Served players text t₁ (offer i left writer t₁).2 := by
        refine Served.quiet (offer_calls i left writer t₁) ?_ ?_
        · cases outputRedirected Book left.stage <;> rfl
        · rw [offer_world]
          unfold offer
          split
          · rfl
          · exact readings_add rfl _
      have hattach : Served players text (offer i left writer t₁).2 (attachInput right reader (offer i left writer t₁).2).2 :=
        ⟨[.attachInput right.number reader], rfl, (readings_add rfl _).trans (List.append_nil _).symm⟩
      exact ((hmade.trans hoffer).trans hattach).trans (ih _ _ _)

theorem join_served (stages : List (Watched Player)) (t : Traced Book) : Served players text t (join stages t).2.2 := by
  cases stages with
  | nil => exact Served.refl
  | cons first rest => exact joinFrom_served rest 0 first t

theorem announce_served (style : String → String) (error : StageError) (t : Traced Book) :
    Served players text t (announce style error t) := by
  refine Served.quiet (announce_calls style error t) (filterMap_shown (fun _ _ => rfl) style _) ?_
  have hw : (announce style error t).world = announce style error t.world := by
    unfold announce
    split <;> rfl
  rw [hw]
  unfold announce
  split <;> rfl

theorem conclude_served (style : String → String) (error : StageError) (t : Traced Book) :
    Served players text t (conclude style error t) := by
  unfold conclude
  split
  · exact Served.refl
  · exact announce_served style _ t

/-! ## Starting fills the pipes -/

/-- The pipe behind player `k` with this text in it. The player can write to it unless it redirects its output. -/
def behind (players : List Player) (text : Nat → Bytes) (k : Nat) : Pipe :=
  { data := text k, writers := if players[k]?.any Player.redirected then 0 else 1 }

/-- The pipes behind the players from `i` on are filled with these texts. -/
def Filled (players : List Player) (base : Nat) (text : Nat → Bytes) (i : Nat) (ps : Pipes) : Prop :=
  ∀ k, i ≤ k → k + 1 < players.length → ps[base + k]? = some (behind players text k)

/-- The players before player `i` have given back their ends: the pipes behind the others are as they were filled,
    and into the one that player `i` reads from nobody can write any more. -/
structure Ready (players : List Player) (base : Nat) (text : Nat → Bytes) (i : Nat) (ps : Pipes) : Prop where
  filled : Filled players base text i ps
  feeding : ∀ j, j + 1 = i → i < players.length → ∃ p, ps[base + j]? = some p ∧ p.writers = 0 ∧ p.data = text j

theorem sent_congr {calls calls' : List Call} {k : Nat} (h : startedWell calls k = startedWell calls' k) :
    sent players calls k = sent players calls' k := by
  unfold sent
  rw [h]

theorem sent_of_not_started {calls : List Call} {k : Nat} (h : startedWell calls k = false) : sent players calls k = [] := by
  unfold sent
  rw [h]
  split
  · simp
  · rfl

theorem sent_of_started {calls : List Call} {k : Nat} {q : Player} (hq : players[k]? = some q)
    (h : startedWell calls k = true) :
    sent players calls k = if q.redirected then [] else (q.emit.map Bytes.ofString).getD [] := by
  unfold sent
  rw [hq, h]
  simp

theorem startedWell_start (calls : List Call) (i k : Nat) (failure : Option StageError) :
    startedWell (calls ++ [.start i failure]) k = (startedWell calls k || (failure.isNone && i == k)) := by
  rw [startedWell_append]
  cases failure <;> simp [startedWell]

/-- A player that starts well writes its text into the pipe behind it, if it was given that pipe. -/
theorem pipes_start {p : Player} {b : Book} (h : p.startError = none) (j : Nat) :
    (p.start b).2.2.pipes[j]? = match p.stdout, p.emit with
      | some e, some text => (b.pipes.write e (Bytes.ofString text)).2[j]?
      | _, _ => b.pipes[j]? := by
  unfold Player.start
  rw [h]
  cases p.emit <;> cases hout : p.stdout <;> simp [Player.say, hout, Book.add]

theorem pipes_start_ne {p : Player} {b : Book} {i k : Nat} (h : p.startError = none)
    (hout : p.stdout = wiredOutput (laid Book players base) (players.length - 1) i)
    (hfilled : Filled players base text 0 b.pipes) (hne : k ≠ i) :
    (p.start b).2.2.pipes[base + k]? = b.pipes[base + k]? := by
  rw [pipes_start h, hout]
  cases hw : wiredOutput (laid Book players base) (players.length - 1) i with
  | none => rfl
  | some e =>
    obtain rfl := eq_of_wiredOutput hw
    have hi : i + 1 < players.length := by
      unfold wiredOutput at hw
      split at hw
      · omega
      · cases hw
    cases p.emit with
    | none => rfl
    | some message =>
      have hwrite := Pipes.getElem?_write (hfilled i (Nat.zero_le i) hi) Nat.one_pos (Bytes.ofString message) (base + k)
      rwa [if_neg (by omega)] at hwrite

theorem pipes_start_self {p q : Player} {b : Book} {i : Nat} (hq : players[i]? = some q) (h : p.startError = none)
    (hemit : p.emit = q.emit) (hout : p.stdout = wiredOutput (laid Book players base) (players.length - 1) i)
    (hfilled : Filled players base text 0 b.pipes) (hi : i + 1 < players.length) (hempty : text i = []) :
    (p.start b).2.2.pipes[base + i]? =
      some { behind players text i with data := if q.redirected then [] else (q.emit.map Bytes.ofString).getD [] } := by
  have hold := hfilled i (Nat.zero_le i) hi
  have hlt : i < players.length - 1 := by omega
  have hlaid : (laid Book players base i).redirected = q.redirected := by simp [laid, hq]; rfl
  rw [pipes_start h, hout, hemit, wiredOutput, hlaid]
  cases hred : q.redirected with
  | true =>
    rw [if_neg (by simp)]
    simpa [behind, hempty] using hold
  | false =>
    rw [if_pos ⟨hlt, rfl⟩]
    cases q.emit with
    | none => simpa [behind, hempty] using hold
    | some message =>
      have hwrite := Pipes.getElem?_write hold Nat.one_pos (Bytes.ofString message) (base + i)
      simpa [behind, hempty, laid] using hwrite

/-- A start leaves each pipe with what has been sent by then. -/
theorem start_ready {p : Watched Player} {i : Nat} (hcast : Cast players p) (hnum : p.number = i)
    (hout : p.output = wiredOutput (laid Book players base) (players.length - 1) i)
    (hnot : startedWell t.calls i = false) (h : Ready players base (sent players t.calls) 0 t.world.pipes) :
    Ready players base (sent players (start p t).2.2.calls) 0 (start p t).2.2.world.pipes := by
  obtain ⟨q, hq, hstage⟩ := hcast
  rw [hnum] at hq
  have hcalls : (start p t).2.2.calls = t.calls ++ [.start i (failure? (p.stage.start t.world).1)] := by
    rw [← hnum]
    rfl
  have hworld : (start p t).2.2.world = (p.stage.start t.world).2.2 := rfl
  have herror : p.stage.startError = q.startError := by rw [hstage]
  have hstdout : p.stage.stdout = wiredOutput (laid Book players base) (players.length - 1) i := by rw [hstage, ← hout]
  rw [hcalls, hworld]
  refine ⟨?_, fun j hj => by omega⟩
  intro k _ hk
  cases he : q.startError with
  | some error =>
    have hstart : p.stage.start t.world = (.error error, p.stage, t.world.add (.start p.stage.name)) := by
      unfold Player.start
      rw [herror, he]
    have hsame : sent players (t.calls ++ [.start i (some error)]) k = sent players t.calls k :=
      sent_congr (by simp [startedWell_start])
    rw [hstart]
    simp only [failure?, behind, hsame]
    exact h.filled k (Nat.zero_le k) hk
  | none =>
    have hfailure : failure? (p.stage.start t.world).1 = none := by
      unfold Player.start
      rw [herror, he]
      rfl
    rw [hfailure]
    by_cases hki : k = i
    · subst hki
      rw [pipes_start_self hq (herror.trans he) (by rw [hstage]) hstdout h.filled hk (sent_of_not_started hnot)]
      simp only [behind, sent_of_started hq (show startedWell (t.calls ++ [.start k none]) k = true by simp [startedWell_start])]
    · have hsame : sent players (t.calls ++ [.start i none]) k = sent players t.calls k :=
        sent_congr (by simp [startedWell_start, Ne.symm hki])
      rw [pipes_start_ne (herror.trans he) hstdout h.filled hki]
      simp only [behind, hsame]
      exact h.filled k (Nat.zero_le k) hk

theorem Ready.congr {text' : Nat → Bytes} {i : Nat} {ps : Pipes} (h : Ready players base text i ps)
    (ht : ∀ k, text k = text' k) : Ready players base text' i ps := by
  rwa [show text = text' from funext ht] at h

theorem startedWell_announce (style : String → String) (error : StageError) (t : Traced Book) (k : Nat) :
    startedWell (announce style error t).calls k = startedWell t.calls k := by
  have hnone : startedWell (shown style (some error)) k = false := by
    refine startedWell_eq_false (fun i h => ?_) k
    obtain ⟨message, styled, h⟩ := mem_shown h
    cases h
  rw [announce_calls, startedWell_append, hnone, Bool.or_false]

theorem pipes_announce (style : String → String) (error : StageError) (t : Traced Book) :
    (announce style error t).world.pipes = t.world.pipes := by
  unfold announce
  split <;> rfl

theorem start_served (p : Watched Player) (t : Traced Book) : Served players text t (start p t).2.2 := by
  refine Served.quiet (start_watched rfl).2 rfl ?_
  show (p.stage.start t.world).2.2.readings = t.world.readings
  unfold Player.start
  cases p.stage.startError with
  | some error => exact readings_add rfl _
  | none =>
    cases p.stage.emit with
    | none => exact readings_add rfl _
    | some message =>
      simp only [Option.map_some, Option.getD_some, Player.say]
      cases p.stage.stdout <;> exact readings_add rfl _

theorem startFrom_served (style : String → String) (ps : List (Watched Player)) : ∀ (i : Nat) (t : Traced Book),
    Served players text t (startFrom style i ps t).2.2 := by
  induction ps with
  | nil => intro i t; exact Served.refl
  | cons p rest ih =>
    intro i t
    have hrest := ih (i + 1) t
    rcases hr : startFrom style (i + 1) rest t with ⟨all, rest₁, t₁⟩
    rw [hr] at hrest
    cases all with
    | false =>
      simp only [startFrom, hr]
      exact hrest
    | true =>
      have hstart : Served players text t _ := hrest.trans (start_served p t₁)
      rcases hst : start p t₁ with ⟨answer, p₁, t₂⟩
      rw [hst] at hstart
      cases answer with
      | ok _ =>
        simp only [startFrom, hr, hst]
        exact hstart
      | error error =>
        simp only [startFrom, hr, hst]
        exact hstart.trans (announce_served style error (note (.startAbandoned i) t₂))

/-- When the starts are over, each pipe holds what the player before it sent. -/
theorem startFrom_ready (style : String → String) (ps : List (Watched Player)) : ∀ (i : Nat) (t : Traced Book),
    (∀ p ∈ ps, Cast players p) →
    ps.map Watched.slot = slots (wiredInput (laid Book players base) (players.length - 1))
      (wiredOutput (laid Book players base) (players.length - 1)) i ps.length →
    (∀ k < i + ps.length, startedWell t.calls k = false) →
    Ready players base (sent players t.calls) 0 t.world.pipes →
      (startFrom style i ps t).2.1 = ps ∧
        Ready players base (sent players (startFrom style i ps t).2.2.calls) 0 (startFrom style i ps t).2.2.world.pipes ∧
        ∀ k < i, startedWell (startFrom style i ps t).2.2.calls k = false := by
  induction ps with
  | nil => intro i t _ _ hnot h; exact ⟨rfl, h, fun k hk => hnot k hk⟩
  | cons p rest ih =>
    intro i t hcast hslots hnot h
    rw [List.length_cons, slots_succ, List.map_cons, List.cons.injEq] at hslots
    obtain ⟨hp, hrest⟩ := hslots
    have hnum : p.number = i := congrArg (·.1) hp
    have hout : p.output = _ := congrArg (·.2.2) hp
    obtain ⟨hsame, hready, hbefore⟩ := ih (i + 1) t (fun p hp => hcast p (List.mem_cons_of_mem _ hp)) hrest
      (fun k hk => hnot k (by rw [List.length_cons]; omega)) h
    rcases hr : startFrom style (i + 1) rest t with ⟨all, rest₁, t₁⟩
    rw [hr] at hsame hready hbefore
    dsimp only at hsame hready hbefore
    subst hsame
    cases all with
    | false =>
      simp only [startFrom, hr]
      exact ⟨trivial, hready, fun k hk => hbefore k (by omega)⟩
    | true =>
      have hready₁ := start_ready (hcast p List.mem_cons_self) hnum hout (hbefore i (Nat.lt_succ_self i)) hready
      have hkept := start_same p t₁
      have hbefore₁ : ∀ k < i, startedWell (start p t₁).2.2.calls k = false := by
        intro k hk
        have hne : ¬ i = k := by omega
        have hcalls : (start p t₁).2.2.calls = t₁.calls ++ [.start p.number _] := (start_watched rfl).2
        rw [hcalls, hnum, startedWell_start, hbefore k (by omega)]
        simp [hne]
      rcases hst : start p t₁ with ⟨answer, p₁, t₂⟩
      rw [hst] at hready₁ hkept hbefore₁
      dsimp only at hready₁ hkept hbefore₁
      subst hkept
      cases answer with
      | ok _ =>
        simp only [startFrom, hr, hst]
        exact ⟨trivial, hready₁, hbefore₁⟩
      | error error =>
        simp only [startFrom, hr, hst]
        have hsame := startedWell_announce style error (note (.startAbandoned i) t₂)
        refine ⟨trivial, ?_, fun k hk => (hsame k).trans (hbefore₁ k hk)⟩
        rw [pipes_announce]
        exact hready₁.congr fun k => sent_congr (hsame k).symm

/-! ## Waiting empties them -/

/-- A player whose pipe nobody can write into any more reads it to the end. -/
theorem readAll_fed {p : Player} {b : Book} {j : Nat} {q : Pipe} (h : p.stdin = some ⟨j, .read⟩)
    (hq : b.pipes[j]? = some q) (hw : q.writers = 0) :
    (p.readAll b).readings = b.readings ++ [.read p.name q.data] ∧
      ∀ k, k ≠ j → (p.readAll b).pipes[k]? = b.pipes[k]? := by
  have hblocks : b.pipes.blocks ⟨j, .read⟩ = false := by simp [Pipes.blocks, hq, hw]
  obtain ⟨hdata, hpipes⟩ := Pipes.getElem?_read hq
  have hread : p.readAll b =
      Book.add (.read p.name q.data) { b with pipes := (b.pipes.read ⟨j, .read⟩).2 } := by
    unfold Player.readAll
    rw [h]
    simp only [hblocks, Bool.false_eq_true, if_false, hdata]
    rfl
  rw [hread]
  refine ⟨?_, hpipes⟩
  simp [Book.readings, Book.add, Event.isReading]

theorem wait_world (p : Watched Player) (t : Traced Book) :
    (wait p t).2.2.world = p.stage.readAll (t.world.add (.wait p.stage.name)) := by
  show (p.stage.wait t.world).2.2 = _
  unfold Player.wait
  cases p.stage.waitError <;> rfl

/-- A wait reads what the player before sent, and leaves the pipes ahead as they are. -/
theorem wait_served {p : Watched Player} {i : Nat} (hcast : Cast players p) (hnum : p.number = i)
    (hin : p.input = wiredInput (laid Book players base) (players.length - 1) i)
    (h : Ready players base text i t.world.pipes) :
    Served players text t (wait p t).2.2 ∧ Filled players base text i (wait p t).2.2.world.pipes := by
  obtain ⟨q, hq, hstage⟩ := hcast
  have hlt : i < players.length := by
    rw [← hnum]
    exact (List.getElem?_eq_some_iff.mp hq).1
  have hcalls : (wait p t).2.2.calls = t.calls ++ [.wait p.number _] := (wait_watched rfl).2
  have hstdin : p.stage.stdin = wiredInput (laid Book players base) (players.length - 1) i := by rw [hstage, ← hin]
  have hname : (players[p.number]?.map Player.name).getD "" = p.stage.name := by rw [hq, hstage]; rfl
  rw [wait_world]
  cases i with
  | zero =>
    have hsame : p.stage.readAll (t.world.add (.wait p.stage.name)) = t.world.add (.wait p.stage.name) := by
      unfold Player.readAll
      rw [hstdin]
      rfl
    rw [hsame]
    refine ⟨Served.quiet hcalls (by rw [hnum]; rfl) ?_, h.filled⟩
    rw [wait_world, hsame]
    exact readings_add rfl _
  | succ j =>
    have hfed : p.stage.stdin = some ⟨base + j, .read⟩ := hstdin.trans (if_pos ⟨Nat.succ_pos j, Nat.le_pred_of_lt hlt⟩)
    obtain ⟨pipe, hpipe, hwriters, hdata⟩ := h.feeding j rfl hlt
    obtain ⟨hreadings, hpipes⟩ := readAll_fed (b := t.world.add (.wait p.stage.name)) hfed hpipe hwriters
    refine ⟨⟨_, hcalls, ?_⟩, ?_⟩
    · rw [wait_world, hreadings, readings_add rfl, hnum, hdata]
      rw [hnum] at hname
      simp [delivery, hname]
    · intro k hk hkn
      rw [hpipes (base + k) (by omega)]
      exact h.filled k hk hkn

theorem pipes_dropHeld_ne {held : Option PipeEnd} {j : Nat} (h : ∀ e, held = some e → j ≠ e.pipe) (b : Book) :
    (b.dropHeld held).pipes[j]? = b.pipes[j]? := by
  cases held with
  | none => rfl
  | some e => exact Pipes.getElem?_release_ne b.pipes (h e rfl)

theorem detachInput_filled {p : Player} {b : Book} {i : Nat} (h : Filled players base text i b.pipes)
    (hin : p.stdin = wiredInput (laid Book players base) (players.length - 1) i) :
    Filled players base text i (p.detachInput b).2.pipes := by
  intro k hk hkn
  refine (pipes_dropHeld_ne ?_ (b.add (.detachInput p.name))).trans (h k hk hkn)
  intro e he
  rw [hin, wiredInput] at he
  split at he <;> cases he
  show base + k ≠ base + (i - 1)
  omega

/-- When player `i` has given back its write end, nobody can write into the pipe behind it. -/
theorem detachOutput_ready {p : Player} {b : Book} {i : Nat} (h : Filled players base text i b.pipes)
    (hout : p.stdout = wiredOutput (laid Book players base) (players.length - 1) i) :
    Ready players base text (i + 1) (p.detachOutput b).2.pipes := by
  refine ⟨?_, ?_⟩
  · intro k hk hkn
    refine (pipes_dropHeld_ne ?_ (b.add (.detachOutput p.name))).trans (h k (by omega) hkn)
    intro e he
    rw [hout] at he
    rw [eq_of_wiredOutput he]
    show base + k ≠ base + i
    omega
  · intro j hj hlt
    obtain rfl : j = i := by omega
    have hpipe := h j (Nat.le_refl j) hlt
    have hred : (laid Book players base j).redirected = players[j]?.any Player.redirected := rfl
    have hlt' : j < players.length - 1 := by omega
    show ∃ q, (Book.dropHeld p.stdout (b.add (.detachOutput p.name))).pipes[base + j]? = some q ∧ _
    rw [hout, wiredOutput, hred]
    cases hr : players[j]?.any Player.redirected with
    | true =>
      rw [if_neg (by simp)]
      exact ⟨_, hpipe, by simp [behind, hr], rfl⟩
    | false =>
      rw [if_pos ⟨hlt', rfl⟩]
      exact ⟨_, Pipes.getElem?_release_writer hpipe, by simp [behind, hr], rfl⟩

theorem closeEnds_ready {p : Watched Player} {i : Nat} (hcast : Cast players p)
    (hin : p.input = wiredInput (laid Book players base) (players.length - 1) i)
    (hout : p.output = wiredOutput (laid Book players base) (players.length - 1) i)
    (h : Filled players base text i t.world.pipes) :
    Ready players base text (i + 1)
      (closeEnds (decide (i = 0)) (decide (i + 1 = players.length)) p t).2.world.pipes := by
  obtain ⟨q, -, hstage⟩ := hcast
  have hstdin : p.stage.stdin = wiredInput (laid Book players base) (players.length - 1) i := by rw [hstage, ← hin]
  have hstdout : p.stage.stdout = wiredOutput (laid Book players base) (players.length - 1) i := by rw [hstage, ← hout]
  -- the last player has no pipe behind it
  have hlast : i + 1 = players.length → ∀ ps, Ready players base text (i + 1) ps := fun hn ps =>
    ⟨fun k hk hkn => by omega, fun j hj hjn => by omega⟩
  by_cases hn : i + 1 = players.length
  · exact hlast hn _
  · by_cases hi : i = 0
    · rw [decide_eq_true hi, decide_eq_false hn]
      exact detachOutput_ready h hstdout
    · rw [decide_eq_false hi, decide_eq_false hn]
      exact detachOutput_ready (detachInput_filled h hstdin) hstdout

theorem closeEnds_served (isFirst isLast : Bool) (p : Watched Player) (t : Traced Book) :
    Served players text t (closeEnds isFirst isLast p t).2 := by
  refine Served.quiet (closeEnds_watched isFirst isLast p t).2 (by cases isFirst <;> cases isLast <;> rfl) ?_
  have hdetachInput : ∀ (p : Player) (b : Book), (p.detachInput b).2.readings = b.readings := fun p b =>
    (readings_dropHeld _ _).trans (readings_add rfl b)
  have hdetachOutput : ∀ (p : Player) (b : Book), (p.detachOutput b).2.readings = b.readings := fun p b =>
    (readings_dropHeld _ _).trans (readings_add rfl b)
  cases isFirst <;> cases isLast
  · exact (hdetachOutput _ _).trans (hdetachInput _ _)
  · exact hdetachInput _ _
  · exact hdetachOutput _ _
  · rfl

/-- Each wait reads what the player before sent. -/
theorem waitFrom_served (style : String → String) (ps : List (Watched Player)) : ∀ (i : Nat) (t : Traced Book),
    (∀ p ∈ ps, Cast players p) →
    ps.map Watched.slot = slots (wiredInput (laid Book players base) (players.length - 1))
      (wiredOutput (laid Book players base) (players.length - 1)) i ps.length →
    i + ps.length = players.length → Ready players base text i t.world.pipes →
      Served players text t (waitFrom style (decide (i = 0)) ps t).2.2 := by
  induction ps with
  | nil => intro i t _ _ _ _; exact Served.refl
  | cons p rest ih =>
    intro i t hcast hslots hlen h
    rw [List.length_cons] at hlen
    rw [List.length_cons, slots_succ, List.map_cons, List.cons.injEq] at hslots
    obtain ⟨hp, hrest⟩ := hslots
    have hnum : p.number = i := congrArg (·.1) hp
    have hin : p.input = _ := congrArg (·.2.1) hp
    have hout : p.output = _ := congrArg (·.2.2) hp
    have hcastp := hcast p List.mem_cons_self
    obtain ⟨hserved, hfilled⟩ := wait_served hcastp hnum hin h
    have hkept := wait_same p t
    rcases hw : wait p t with ⟨answer, p₁, t₁⟩
    rw [hw] at hserved hfilled hkept
    dsimp only at hserved hfilled hkept
    subst hkept
    rcases answer with error | _
    · rw [waitFrom_error hw]
      exact hserved.trans (conclude_served style error t₁)
    · have hlast : rest.isEmpty = decide (i + 1 = players.length) := by cases rest <;> simp at hlen ⊢ <;> omega
      rw [waitFrom_ok hw, hlast]
      have hready := closeEnds_ready hcastp hin hout hfilled
      have hclosed : Served players text t₁ _ := closeEnds_served (decide (i = 0)) (decide (i + 1 = players.length)) p₁ t₁
      have hbehind := ih (i + 1) _ (fun p hp => hcast p (List.mem_cons_of_mem _ hp)) hrest (by omega) hready
      exact (hserved.trans hclosed).trans hbehind

/-! ## The whole run -/

/-- The pipes of players that have just been joined are empty. -/
theorem filled_of_laid {b b' : Book}
    (h : HasPipes.plumbing b' = (HasPipes.plumbing b).extend ((players.take (players.length - 1)).map (pipeBehind Book))) :
    Filled players b.pipes.length (fun _ => []) 0 b'.pipes := by
  have hpipes : b'.pipes = b.pipes ++ (players.take (players.length - 1)).map (pipeBehind Book) :=
    congrArg Plumbing.pipes h
  intro k _ hk
  have hlt : k < players.length := by omega
  have hlt' : k < players.length - 1 := by omega
  rw [hpipes, List.getElem?_append_right (Nat.le_add_right _ _), Nat.add_sub_cancel_left, List.getElem?_map,
    List.getElem?_take_of_lt hlt', List.getElem?_eq_getElem hlt]
  simp [behind, pipeBehind, hlt]
  rfl

theorem start_not_mem_wiring {joint : Nat → Joint} {i n j : Nat} {failure : Option StageError} :
    .start j failure ∉ wiring joint i n := by
  intro h
  obtain ⟨ends, h⟩ | ⟨e, h⟩ | ⟨k, e, h⟩ | ⟨k, e, h⟩ := mem_wiring h <;> cases h

theorem start_not_mem_waits {style : String → String} {n i m l j : Nat} {failure failure' : Option StageError} :
    .start j failure ∉ goodWaits n i m ++ (badWait l failure' ++ shown style failure') := by
  intro h
  simp only [List.mem_append] at h
  rcases h with h | h | h
  · obtain ⟨k, -, -, h | h | h⟩ := mem_goodWaits h <;> cases h
  · cases failure' <;> simp [badWait] at h
  · obtain ⟨message, styled, h⟩ := mem_shown h
    cases h

/-- From the first call to the last the players read what was sent to them. -/
theorem watch_served (hun : Unwired Book players) (style : String → String) (b : Book) :
    Served players (sent players (callsOf style players b)) ({ world := b } : Traced Book) (watch style players b).2.2 := by
  cases players with
  | nil => exact Served.refl
  | cons first rest =>
    obtain ⟨made, failure, ps, t, hwired, hlaid⟩ := join_laid first rest b
    have hjoin : ∀ text, Served (first :: rest) text ({ world := b } : Traced Book) t := by
      intro text
      have h : Served (first :: rest) text _ _ := join_served (watched (first :: rest)) ({ world := b } : Traced Book)
      rwa [hwired.joined] at h
    cases failure with
    | some errno =>
      have hwatch : watch style (first :: rest) b = (.goOn, ps, announce style (.noPipe errno) t) :=
        run_unjoined hwired.joined
      rw [hwatch]
      exact (hjoin _).trans (announce_served style _ t)
    | none =>
      have hmade : made = (first :: rest).length - 1 := hwired.complete.mp rfl
      subst hmade
      have hcast : ∀ p ∈ ps, Cast (first :: rest) p := by
        have h := join_cast hun ({ world := b } : Traced Book)
        rwa [hwired.joined] at h
      have hlen := (numbers_of_slots hwired.slots).1
      have hslots : ps.map Watched.slot =
          slots (wiredInput (laid Book (first :: rest) b.pipes.length) ((first :: rest).length - 1))
            (wiredOutput (laid Book (first :: rest) b.pipes.length) ((first :: rest).length - 1)) 0 ps.length := by
        rw [hlen]
        exact hwired.slots
      have hnot : ∀ k, startedWell t.calls k = false := by
        refine startedWell_eq_false fun i => ?_
        rw [hwired.calls]
        simp [start_not_mem_wiring, refusal]
      have hready : Ready (first :: rest) b.pipes.length (sent (first :: rest) t.calls) 0 t.world.pipes :=
        Ready.congr ⟨filled_of_laid hlaid, fun j hj => by omega⟩ fun k => (sent_of_not_started (hnot k)).symm
      obtain ⟨hsame, hready₁, -⟩ := startFrom_ready style ps 0 t hcast hslots (fun k _ => hnot k) hready
      have hstarted : ∀ text, Served (first :: rest) text t (startFrom style 0 ps t).2.2 := fun text =>
        startFrom_served style ps 0 t
      have hwatch : watch style (first :: rest) b = _ := run_joined hwired.joined
      rcases hr : startFrom style 0 ps t with ⟨all, qs, t₁⟩
      rw [hr] at hsame hready₁ hstarted hwatch
      dsimp only at hsame hready₁ hstarted hwatch
      subst hsame
      -- nothing is started any more, so what was sent is settled
      obtain ⟨m, g, hwaited⟩ := waitFrom_watched style (first :: rest).length _ _ qs 0 t₁ hslots (by omega)
      have hsent : ∀ k, sent (first :: rest) t₁.calls k = sent (first :: rest) (callsOf style (first :: rest) b) k := by
        intro k
        have hcalls : callsOf style (first :: rest) b = t₁.calls ++ _ :=
          (congrArg (·.2.2.calls) hwatch).trans hwaited.calls
        refine sent_congr ?_
        rw [hcalls, startedWell_append, startedWell_eq_false fun _ => start_not_mem_waits, Bool.or_false]
      have hserved := waitFrom_served style qs 0 t₁ hcast hslots (by omega) (hready₁.congr hsent)
      rw [hwatch]
      exact ((hjoin _).trans (hstarted _)).trans hserved

end Run

/-- Every wait for a player behind the first one finds the pipe that it reads from without a writer, and reads from
    it what the player before has sent, to the end. -/
theorem waits_deliver (style : String → String) (players : List Player) (b : Book) (hun : Unwired Book players) :
    let base := b.pipes.length
    let calls := callsOf style players b
    (∀ before i failure behind, calls = before ++ .wait (i + 1) failure :: behind →
      let custody := ({} : Custody).afterAll before
      custody.holds (.input (i + 1)) = some ⟨base + i, .read⟩ ∧ ∀ h, custody.holds h ≠ some ⟨base + i, .write⟩) ∧
    (run style players b).2.2.readings = b.readings ++ calls.filterMap (delivery players (sent players calls)) := by
  intro base calls
  refine ⟨?_, ?_⟩
  · intro before i failure behind hcut
    cases players with
    | nil =>
      have hcut : [] = before ++ .wait (i + 1) failure :: behind := hcut
      simp at hcut
    | cons first rest =>
      obtain ⟨made, errno, ps, t, hwired, -⟩ := join_laid first rest b
      obtain ⟨c, hwent⟩ := hwired.went (Nat.succ_pos _) style
      exact (hwent.standing.1.at hcut).2 i failure rfl
  · obtain ⟨more, hcalls, hreadings⟩ := watch_served hun style b
    have hmore : calls = more := hcalls
    rw [(watch_run style players b).2.2, ← hmore] at hreadings
    exact hreadings

/-- The first of four players cannot be started and the third redirects its output: only the text of the second
    arrives. -/
theorem waits_deliver_one_text :
    let players : List Player :=
      [{ name := "a", startError := some (.exited "a" 1), emit := some "lost" }, { name := "b", emit := some "kept" },
       { name := "c", redirected := true, emit := some "aside" }, { name := "d" }]
    Unwired Book players ∧
      (run id players ({} : Book)).2.2.readings =
        [.read "b" [], .read "c" (Bytes.ofString "kept"), .read "d" []] := by
  intro players
  have hun : Unwired Book players := by
    intro p hp
    simp only [players, List.mem_cons, List.not_mem_nil, or_false] at hp
    rcases hp with rfl | rfl | rfl | rfl <;> rfl
  exact ⟨hun, (waits_deliver id players {} hun).2.trans rfl⟩

end Rehearsal

end CommandShell
