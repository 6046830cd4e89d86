/-
AppSynthesis.Proofs.Store.Interference — a script whose requests are mixed with
what others do.

* `Interference` — before each request of the script others run any script of
  their own, and any write of an App may be refused over a conflict.
* `Script.amid` — the run of a script under interference, with a record of its
  write attempts (`Attempt`): the live store right before, what was to be written,
  the answer, and the live store after.
* `Interference.idle`, `Script.amid_idle` — without interference this is the run of the script.
* `Interference.alone` — what the others alone come to.
* `Script.amid_bind` — one script after another.

What others do may depend on anything they see: a run is determined by the scripts
that they happen to run, so quantifying over the scripts quantifies over all their
reasons.
-/
import AppSynthesis.Controller
import AppSynthesis.Proofs.Store.Runs

namespace AppSynthesis

/-! ## Interference -/

/-- What comes in between the requests of a script, by their number. -/
structure Interference where
  /-- What others do right before a request. -/
  others : Nat → Script Unit
  /-- The error that refuses a write of an App, if any. -/
  refusal : Nat → Option Error
  refusal_isConflict : ∀ n e, refusal n = some e → e.isConflict = true

/-- Others do nothing and nothing is refused. -/
def Interference.idle : Interference where
  others _ := .done ()
  refusal _ := none
  refusal_isConflict := nofun

/-- A write that a script asked for. -/
structure Attempt where
  before : LiveStore
  obj : Resource
  answer : Except Error Receipt
  after : LiveStore

/-- What a run under interference comes to. -/
structure Outcome (α : Type) where
  result : Except Error α
  live : LiveStore
  /-- The writes that were asked for, in order. -/
  attempts : List Attempt := []
  /-- The number of requests that were made. -/
  requests : Nat := 0

namespace Outcome

variable {α β : Type}

/-- One more request came before. -/
def counted (o : Outcome α) : Outcome α := { o with requests := o.requests + 1 }

/-- A write came before. -/
def attempted (a : Attempt) (o : Outcome α) : Outcome α :=
  { o.counted with attempts := a :: o.attempts }

/-- A run that goes on from the result of another. -/
def andThen (o : Outcome α) (next : α → LiveStore → Outcome β) : Outcome β :=
  match o.result with
  | .ok x =>
    let p := next x o.live
    { p with attempts := o.attempts ++ p.attempts, requests := o.requests + p.requests }
  | .error e => ⟨.error e, o.live, o.attempts, o.requests⟩

theorem andThen_of_ok {o : Outcome α} {x : α} (h : o.result = .ok x)
    (next : α → LiveStore → Outcome β) :
    o.andThen next =
      { next x o.live with
        attempts := o.attempts ++ (next x o.live).attempts
        requests := o.requests + (next x o.live).requests } := by
  unfold andThen
  rw [h]

theorem andThen_of_error {o : Outcome α} {e : Error} (h : o.result = .error e)
    (next : α → LiveStore → Outcome β) :
    o.andThen next = ⟨.error e, o.live, o.attempts, o.requests⟩ := by
  unfold andThen
  rw [h]

/-- Going on with a result that is already there changes no more than the live
store, and not even that after an error. -/
theorem andThen_result (o : Outcome α) (f : α → LiveStore → LiveStore) :
    (o.andThen fun x w => { result := .ok x, live := f x w }).result = o.result ∧
    (o.andThen fun x w => { result := .ok x, live := f x w }).attempts = o.attempts ∧
    (o.andThen fun x w => { result := .ok x, live := f x w }).requests = o.requests ∧
    ∀ e, o.result = .error e →
      (o.andThen fun x w => { result := .ok x, live := f x w }).live = o.live := by
  rcases h : o.result with e | x
  · rw [andThen_of_error h]
    exact ⟨rfl, rfl, rfl, fun _ _ => rfl⟩
  · rw [andThen_of_ok h]
    exact ⟨rfl, List.append_nil _, rfl, fun e he => nomatch he⟩

theorem counted_andThen (o : Outcome α) (next : α → LiveStore → Outcome β) :
    o.counted.andThen next = (o.andThen next).counted := by
  rcases h : o.result with e | x
  · rw [andThen_of_error h, andThen_of_error (show o.counted.result = _ from h)]
    rfl
  · rw [andThen_of_ok h, andThen_of_ok (show o.counted.result = _ from h)]
    simp only [counted, Nat.add_right_comm]

theorem attempted_andThen (a : Attempt) (o : Outcome α) (next : α → LiveStore → Outcome β) :
    (o.attempted a).andThen next = (o.andThen next).attempted a := by
  rcases h : o.result with e | x
  · rw [andThen_of_error h, andThen_of_error (show (o.attempted a).result = _ from h)]
    rfl
  · rw [andThen_of_ok h, andThen_of_ok (show (o.attempted a).result = _ from h)]
    simp only [attempted, counted, List.cons_append, Nat.add_right_comm]

end Outcome

namespace Interference

variable (i : Interference) (behaviour : Behaviour)

/-- The live store right before a request. -/
def before (n : Nat) (w : LiveStore) : LiveStore := ((i.others n).run behaviour w).2

/-- What a write comes to. -/
def write (n : Nat) (obj : Resource) (w : LiveStore) : Except Error Receipt × LiveStore :=
  match obj, i.refusal n with
  | .app _, some e => (.error e, w)
  | _, _ => w.add (deliver behaviour nestingLimit) obj

/-- What the others alone come to right before the request that follows `k`
others from number `n` on. -/
def alone : (n k : Nat) → LiveStore → LiveStore
  | _, 0, w => w
  | n, k + 1, w => alone (n + 1) k (i.before behaviour n w)

theorem before_continues {written : List App} {w : LiveStore}
    (h : w.store.Continues written) (n : Nat) :
    (i.before behaviour n w).store.Continues written :=
  (i.others n).run_continues behaviour h

theorem before_idle (n : Nat) (w : LiveStore) : idle.before behaviour n w = w := rfl

theorem write_idle (n : Nat) (obj : Resource) (w : LiveStore) :
    idle.write behaviour n obj w = w.add (deliver behaviour nestingLimit) obj := by
  cases obj <;> rfl

theorem alone_add (j k : Nat) (n : Nat) (w : LiveStore) :
    i.alone behaviour n (j + k) w = i.alone behaviour (n + j) k (i.alone behaviour n j w) := by
  induction j generalizing n w with
  | zero => simp [alone]
  | succ j ih =>
    have hsum : j + 1 + k = (j + k) + 1 := by omega
    have hnext : n + (j + 1) = n + 1 + j := by omega
    rw [hsum, hnext, alone, alone, ih]

end Interference

/-! ## Runs under interference -/

/-- Runs a script under interference, from request `n` on. -/
def Script.amid {α : Type} (i : Interference) (behaviour : Behaviour) :
    Script α → (n : Nat) → LiveStore → Outcome α
  | .done x, _, w => { result := .ok x, live := w }
  | .fail e, _, w => { result := .error e, live := w }
  | .get id type next, n, w =>
    let w := i.before behaviour n w
    ((next (w.store.get id type)).amid i behaviour (n + 1) w).counted
  | .list kind next, n, w =>
    let w := i.before behaviour n w
    ((next (w.store.list kind)).amid i behaviour (n + 1) w).counted
  | .add obj next, n, w =>
    let w := i.before behaviour n w
    let (r, w') := i.write behaviour n obj w
    ((next r).amid i behaviour (n + 1) w').attempted ⟨w, obj, r, w'⟩
  | .delete id next, n, w =>
    let (r, w) := (i.before behaviour n w).delete (deliver behaviour nestingLimit) id
    ((next r).amid i behaviour (n + 1) w).counted
  | .listen event listener flush next, n, w =>
    let (r, w) :=
      (i.before behaviour n w).listen (deliver behaviour nestingLimit) event listener flush
    ((next r).amid i behaviour (n + 1) w).counted
  | .unlisten event listener next, n, w =>
    let w := i.before behaviour n w
    (next.amid i behaviour (n + 1)
      { w with store := w.store.unregister event listener }).counted
  | .log level text next, n, w => next.amid i behaviour n (w.logged level text)

namespace Script

variable {α β : Type} (i : Interference) (behaviour : Behaviour)

/-- **Without interference a script runs as it does by itself**, whatever numbers its requests
have. -/
theorem amid_idle (s : Script α) (n : Nat) (w : LiveStore) :
    ((s.amid .idle behaviour n w).result, (s.amid .idle behaviour n w).live) =
      s.run behaviour w := by
  unfold run
  induction s generalizing n w with
  | done x => rfl
  | fail e => rfl
  | get id type next ih => exact ih _ (n + 1) w
  | list kind next ih => exact ih _ (n + 1) w
  | add obj next ih =>
    -- The one request that can be refused, for an App alone.
    rw [amid, runWith, Interference.before_idle, Interference.write_idle]
    exact ih _ (n + 1) _
  | delete id next ih => exact ih _ (n + 1) _
  | listen event listener flush next ih => exact ih _ (n + 1) _
  | unlisten event listener next ih => exact ih (n + 1) _
  | log level text next ih => exact ih n _

/-- One script after another: the numbers of the requests run on. -/
theorem amid_bind (f : α → Script β) (s : Script α) (n : Nat) (w : LiveStore) :
    (s.bind f).amid i behaviour n w =
      (s.amid i behaviour n w).andThen fun x w' =>
        (f x).amid i behaviour (n + (s.amid i behaviour n w).requests) w' := by
  -- A request before the first script shifts the numbers of the second.
  have hshift : ∀ (o : Outcome α) (m : Nat),
      (fun x w' => (f x).amid i behaviour (m + 1 + o.requests) w') =
        fun x w' => (f x).amid i behaviour (m + o.counted.requests) w' := by
    intro o m
    have hsum : m + 1 + o.requests = m + o.counted.requests := by
      simp only [Outcome.counted]
      omega
    rw [hsum]
  induction s generalizing n w with
  | done x => simp [bind, amid, Outcome.andThen]
  | fail e => rfl
  | get id type next ih =>
    simp only [bind, amid]
    rw [ih, Outcome.counted_andThen, hshift]
  | list kind next ih =>
    simp only [bind, amid]
    rw [ih, Outcome.counted_andThen, hshift]
  | add obj next ih =>
    simp only [bind, amid]
    rw [ih, Outcome.attempted_andThen, hshift]
    rfl
  | delete id next ih =>
    simp only [bind, amid]
    rw [ih, Outcome.counted_andThen, hshift]
  | listen event listener flush next ih =>
    simp only [bind, amid]
    rw [ih, Outcome.counted_andThen, hshift]
  | unlisten event listener next ih =>
    simp only [bind, amid]
    rw [ih, Outcome.counted_andThen, hshift]
  | log level text next ih =>
    simp only [bind, amid]
    rw [ih]

end Script

end AppSynthesis
