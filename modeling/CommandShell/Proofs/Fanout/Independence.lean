/-
  CommandShell.Proofs.Fanout.Independence — the targets of a record know nothing of one another.

  A sink is a target with a state of its own and its own way to answer; it may fail whenever it likes. A list of
  requests is served by asking all sinks for each of them, and a book is kept of who was asked for what.
  - `each_ask`: one request asks every sink once, in order, and moves each as if it were the only one;
  - `serve_sinks`, `serve_book`, `serve_answers`: the same of a whole list of requests;
  - `sinks_independent`: so a sink ends as it would end alone, whatever the others do.
-/

import CommandShell.Fanout

namespace CommandShell.Fanout

/-- What is asked of the targets. -/
inductive Request where
  | write (data : Bytes)
  | flush
  deriving DecidableEq, Repr

/-- What a success counts. -/
def Request.size : Request → Nat
  | .write data => data.length
  | .flush => 0

/-- A target with a state of its own, and the way it takes what is asked of it. -/
structure Sink (σ : Type) where
  put : Bytes → σ → Except Fault Unit × σ
  flush : σ → Except Fault Unit × σ
  state : σ

/-- Who was asked for what, in order. -/
abbrev Book := List (Nat × Request)

variable {σ : Type}

/-- What a sink says to a request, and what it is afterwards. -/
def Sink.answer (r : Request) (s : Sink σ) : Except Fault Unit × Sink σ :=
  let (answer, state) := match r with
    | .write data => s.put data s.state
    | .flush => s.flush s.state
  (answer, { s with state })

/-- A sink after these requests, of which nobody else knows. -/
def Sink.after (requests : List Request) (s : Sink σ) : Sink σ := requests.foldl (fun s r => (s.answer r).2) s

/-- Ask a sink, which has a number, and write it down. -/
def ask (r : Request) (target : Sink σ × Nat) (book : Book) : Except Fault Unit × (Sink σ × Nat) × Book :=
  let (answer, sink) := target.1.answer r
  (answer, (sink, target.2), book ++ [(target.2, r)])

/-- Ask all sinks for one thing. -/
def perform (targets : List (Sink σ × Nat)) (book : Book) : Request → Except Fault Nat × List (Sink σ × Nat) × Book
  | .write data => write (fun data => ask (.write data)) data targets book
  | .flush =>
    let (answer, targets, book) := flush (ask .flush) targets book
    (answer.map fun _ => 0, targets, book)

/-- Ask all sinks for one thing after the other. -/
def serve : List Request → List (Sink σ × Nat) → Book → List (Except Fault Nat) × List (Sink σ × Nat) × Book
  | [], targets, book => ([], targets, book)
  | r :: rest, targets, book =>
    let (answer, targets, book) := perform targets book r
    let (answers, targets, book) := serve rest targets book
    (answer :: answers, targets, book)

/-! ## One request -/

/-- The answer to a request when these are the answers of the sinks: the first failure, or else a success that counts
    all the bytes. -/
inductive Verdict (r : Request) : List (Except Fault Unit) → Except Fault Nat → Prop
  | success (answers : List (Except Fault Unit)) (h : ∀ answer ∈ answers, answer = .ok ()) :
      Verdict r answers (.ok r.size)
  | failure (before after : List (Except Fault Unit)) (fault : Fault) (h : ∀ answer ∈ before, answer = .ok ()) :
      Verdict r (before ++ .error fault :: after) (.error fault)

/-- A sink in front that does not fail makes no difference. -/
theorem Verdict.cons_ok {r : Request} {answers : List (Except Fault Unit)} {answer : Except Fault Nat}
    (h : Verdict r answers answer) : Verdict r (.ok () :: answers) answer := by
  cases h with
  | success _ h => exact .success _ (by simpa using h)
  | failure before after fault h => exact .failure (.ok () :: before) after fault (by simpa using h)

theorem verdict_firstFault (r : Request) (answers : List (Except Fault Unit)) :
    Verdict r answers ((answers.foldr firstFault (.ok ())).map fun _ => r.size) := by
  induction answers with
  | nil => exact .success [] (by simp)
  | cons answer rest ih =>
    cases answer with
    | error fault => exact .failure [] rest fault (by simp)
    | ok _ => exact ih.cons_ok

/-- Every sink is asked once, in order and for the same thing, and answers as if it were the only one. -/
theorem each_ask (r : Request) (targets : List (Sink σ × Nat)) : ∀ book,
    each (ask r) targets book =
      ((targets.map fun t => (t.1.answer r).1).foldr firstFault (.ok ()),
        targets.map fun t => ((t.1.answer r).2, t.2), book ++ targets.map fun t => (t.2, r)) := by
  induction targets with
  | nil => intro book; simp [each]
  | cons target rest ih => intro book; simp [each, ask, ih]

theorem perform_eq (r : Request) (targets : List (Sink σ × Nat)) (book : Book) :
    perform targets book r =
      (((targets.map fun t => (t.1.answer r).1).foldr firstFault (.ok ())).map fun _ => r.size,
        targets.map fun t => ((t.1.answer r).2, t.2), book ++ targets.map fun t => (t.2, r)) := by
  cases r with
  | write data => simp only [perform, write, each_ask, Request.size]
  | flush => simp only [perform, flush, each_ask, Request.size]

/-! ## One request after the other -/

theorem serve_sinks (requests : List Request) : ∀ (targets : List (Sink σ × Nat)) (book : Book),
    (serve requests targets book).2.1 = targets.map fun t => (t.1.after requests, t.2) := by
  induction requests with
  | nil => intro targets book; simp [serve, Sink.after]
  | cons r rest ih =>
    intro targets book
    simp only [serve, perform_eq, ih, List.map_map]
    rfl

theorem serve_book (requests : List Request) : ∀ (targets : List (Sink σ × Nat)) (book : Book),
    (serve requests targets book).2.2 = book ++ requests.flatMap fun r => targets.map fun t => (t.2, r) := by
  induction requests with
  | nil => intro targets book; simp [serve]
  | cons r rest ih =>
    intro targets book
    simp only [serve, perform_eq, ih, List.map_map, List.flatMap_cons, List.append_assoc]
    rfl

theorem length_serve (requests : List Request) : ∀ (targets : List (Sink σ × Nat)) (book : Book),
    (serve requests targets book).1.length = requests.length := by
  induction requests with
  | nil => intro targets book; rfl
  | cons r rest ih => intro targets book; simp [serve, ih]

/-- Each request is answered from what the sinks say to it, in the states that they have reached by then. -/
theorem serve_answers (requests : List Request) : ∀ (targets : List (Sink σ × Nat)) (book : Book) (k : Nat) (r : Request),
    requests[k]? = some r → ∃ answer, (serve requests targets book).1[k]? = some answer ∧
      Verdict r (targets.map fun t => ((t.1.after (requests.take k)).answer r).1) answer := by
  induction requests with
  | nil => intro targets book k r h; simp at h
  | cons first rest ih =>
    intro targets book k r h
    cases k with
    | zero =>
      obtain rfl : first = r := by simpa using h
      refine ⟨(perform targets book first).1, by simp [serve], ?_⟩
      rw [perform_eq]
      exact verdict_firstFault first _
    | succ k =>
      obtain ⟨answer, hanswer, hverdict⟩ := ih (perform targets book first).2.1 (perform targets book first).2.2 k r h
      refine ⟨answer, by simpa [serve] using hanswer, ?_⟩
      rw [perform_eq, List.map_map] at hverdict
      exact hverdict

/-! ## Alone and among others -/

/-- Requests were served to these sinks, numbered in their order, as to each of them alone. -/
structure Independent (sinks : List (Sink σ)) (requests : List Request) (answers : List (Except Fault Nat))
    (targets : List (Sink σ × Nat)) (book : Book) : Prop where
  /-- Every sink is asked once for each thing, in order. -/
  asked : book = requests.flatMap fun r => (List.range sinks.length).map fun i => (i, r)
  length : targets.length = sinks.length
  /-- A sink ends as it would if there were no other. -/
  alone : ∀ i s, sinks[i]? = some s → ∃ s', targets[i]? = some (s', i) ∧ (serve requests [(s, i)] []).2.1 = [(s', i)]
  each : answers.length = requests.length
  /-- A request fails if a sink fails in it, for the reason of the first that does. -/
  answered : ∀ k r, requests[k]? = some r → ∃ answer, answers[k]? = some answer ∧
    Verdict r (sinks.map fun s => ((s.after (requests.take k)).answer r).1) answer

/-- Whatever the sinks do, and whatever is asked of them, none has a part in what becomes of another. -/
theorem sinks_independent (sinks : List (Sink σ)) (requests : List Request) :
    let (answers, targets, book) := serve requests sinks.zipIdx []
    Independent sinks requests answers targets book := by
  refine ⟨?_, ?_, ?_, length_serve requests _ _, ?_⟩
  · rw [serve_book, List.nil_append]
    have hnumbers : ∀ r : Request, (sinks.zipIdx.map fun t => (t.2, r)) = (List.range sinks.length).map fun i => (i, r) := by
      intro r
      rw [List.range_eq_range', ← List.zipIdx_map_snd 0 sinks, List.map_map]
      rfl
    simp only [hnumbers]
  · rw [serve_sinks]
    simp
  · intro i s hs
    refine ⟨s.after requests, ?_, by rw [serve_sinks]; rfl⟩
    rw [serve_sinks]
    simp [hs]
  · intro k r hr
    have hsinks : (sinks.zipIdx.map fun t => ((t.1.after (requests.take k)).answer r).1) =
        sinks.map fun s => ((s.after (requests.take k)).answer r).1 := by
      calc _ = (sinks.zipIdx.map Prod.fst).map fun s => ((s.after (requests.take k)).answer r).1 := List.map_map.symm
        _ = _ := by rw [List.zipIdx_map_fst]
    rw [← hsinks]
    exact serve_answers requests sinks.zipIdx [] k r hr

end CommandShell.Fanout
