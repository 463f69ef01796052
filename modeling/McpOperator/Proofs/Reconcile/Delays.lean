import McpOperator.Proofs.Reconcile.Pass
import McpOperator.Settings
import Mathlib.Data.List.Induction
import Mathlib.Tactic.GCongr
import Mathlib.Algebra.Order.Ring.Nat

namespace McpOperator

/-- What an operator is met with: others change the store, a server gets a pass, or a failure is handed
over to be waited for. -/
inductive Occurrence (σ : Type) where
  | change (f : σ → σ)
  | pass (now : Instant) (trigger : McpServer)
  | failure (server : McpServer) (error : PassError)

/-- What came of it. -/
inductive Entry where
  | changed
  | passed (trigger : McpServer) (result : Except PassError Unit)
  | failed (server : McpServer) (error : PassError) (action : Action)

namespace Entry

def succeeds (key : Key) : Entry → Bool
  | passed trigger (.ok _) => Key.of .server trigger = key
  | _ => false

def counts (key : Key) : Entry → Bool
  | failed server error _ => Key.of .server server = key && !error.isConflict
  | _ => false

def concerns (key : Key) (e : Entry) : Bool := e.succeeds key || e.counts key

theorem succeeds_ok (trigger : McpServer) (key : Key) :
    (passed trigger (.ok ())).succeeds key = decide (Key.of .server trigger = key) := rfl

theorem counts_passed (trigger : McpServer) (result : Except PassError Unit) (key : Key) :
    (passed trigger result).counts key = false := rfl

theorem succeeds_failed (server : McpServer) (error : PassError) (action : Action) (key : Key) :
    (failed server error action).succeeds key = false := rfl

theorem counts_failed (server : McpServer) (error : PassError) (action : Action) (key : Key) :
    (failed server error action).counts key =
      (decide (Key.of .server server = key) && !error.isConflict) := rfl

theorem concerns_eq (key : Key) (e : Entry) : e.concerns key = (e.succeeds key || e.counts key) := rfl

end Entry

/-- The failures since the last pass over the server that went well. -/
def failuresSince (key : Key) (past : List Entry) : Nat :=
  (past.reverse.takeWhile fun e => !e.succeeds key).countP (·.counts key)

structure Operator (σ : Type) where
  store : σ
  backoff : Backoff

namespace Operator

variable {σ : Type}

def start (settings : Settings) (store : σ) : Operator σ := ⟨store, settings.tuning.backoff⟩

def step (settings : Settings) (answer : (c : Call) → σ → c.Answer × σ) (op : Operator σ) :
    Occurrence σ → Entry × Operator σ
  | .change f => (.changed, { op with store := f op.store })
  | .pass now trigger =>
      let (result, store) := (reconcile settings.gatewayImage now trigger).run answer op.store
      (.passed trigger result, ⟨store, afterPass op.backoff trigger result⟩)
  | .failure server error =>
      let (action, backoff) := afterFailure op.backoff server error
      (.failed server error action, { op with backoff })

/-- Everything that comes of what an operator is met with, one after the other. -/
def log (settings : Settings) (answer : (c : Call) → σ → c.Answer × σ) :
    Operator σ → List (Occurrence σ) → List Entry
  | _, [] => []
  | op, o :: rest => (op.step settings answer o).1 :: (op.step settings answer o).2.log settings answer rest

end Operator

namespace Backoff

theorem factor_eq (n : UInt32) : factor n = min (2 ^ n.toNat) (2 ^ 32 - 1) := by
  rw [factor]
  split
  · rename_i h
    have hlt : n.toNat < 32 := h
    have hpow : 2 ^ n.toNat ≤ 2 ^ 31 := Nat.pow_le_pow_right (by omega) (by omega)
    have hle : 2 ^ n.toNat ≤ 2 ^ 32 - 1 := by omega
    exact (Nat.min_eq_left hle).symm
  · rename_i h
    have hle : 32 ≤ n.toNat := Nat.le_of_not_lt h
    have hpow : 2 ^ 32 ≤ 2 ^ n.toNat := Nat.pow_le_pow_right (by omega) hle
    have hge : 2 ^ 32 - 1 ≤ 2 ^ n.toNat := by omega
    exact (Nat.min_eq_right hge).symm

theorem min_pow_min (n : Nat) : min (2 ^ min n (2 ^ 32 - 1)) (2 ^ 32 - 1) = min (2 ^ n) (2 ^ 32 - 1) := by
  rcases Nat.le_total n (2 ^ 32 - 1) with h | h
  · rw [Nat.min_eq_left h]
  · rw [Nat.min_eq_right h]
    have hpow {k : Nat} (hk : 2 ^ 32 - 1 ≤ k) : 2 ^ 32 - 1 ≤ 2 ^ k :=
      Nat.le_trans hk (Nat.le_of_lt Nat.lt_two_pow_self)
    rw [Nat.min_eq_right (hpow (Nat.le_refl _)), Nat.min_eq_right (hpow h)]

theorem toNat_succSaturating (n : UInt32) :
    (succSaturating n).toNat = min (n.toNat + 1) (2 ^ 32 - 1) := by
  rw [succSaturating]
  have hlt := n.toNat_lt
  split
  · rename_i h
    subst h
    decide
  · rename_i h
    have hne : n.toNat ≠ 2 ^ 32 - 1 := fun heq => h (UInt32.toNat_inj.1 heq)
    have hone : (1 : UInt32).toNat = 1 := rfl
    rw [UInt32.toNat_add, hone]
    omega

theorem failuresOf_reset (b : Backoff) (key other : Key) : (b.reset key).failuresOf other =
    if key = other then 0 else b.failuresOf other := by
  rw [failuresOf, reset]
  split
  · rename_i h
    rw [h, Table.get?_erase_self]
    rfl
  · rename_i h
    rw [Table.get?_erase_of_ne _ h]
    rfl

theorem failuresOf_next (b : Backoff) (key other : Key) : (b.next key).2.failuresOf other =
    if key = other then succSaturating (b.failuresOf key) else b.failuresOf other := by
  rw [failuresOf, next]
  split
  · rename_i h
    rw [h, Table.get?_put_self]
    rfl
  · rename_i h
    rw [Table.get?_put_of_ne _ _ h]
    rfl

end Backoff

theorem Duration.nanos_min_times (base max : UInt64) (k : Nat) :
    (((Duration.ofSeconds base).times k).min (.ofSeconds max)).nanos =
      min max.toNat (base.toNat * k) * 1000000000 := by
  have hmax := max.toNat_lt
  have hscale : base.toNat * 1000000000 * k = base.toNat * k * 1000000000 := by
    rw [Nat.mul_assoc, Nat.mul_comm 1000000000 k, ← Nat.mul_assoc]
  rw [Duration.min, apply_ite Duration.nanos]
  simp only [Duration.times, Duration.ofNanos, Duration.ofSeconds, hscale]
  generalize base.toNat * k = seconds
  rw [Duration.limit]
  split <;> omega

theorem Tuning.delay_nanos (t : Tuning) {b : Backoff} (hbase : b.base = t.backoff.base)
    (hmax : b.max = t.backoff.max) (n : UInt32) : (b.delay n).nanos =
      min t.backoffMax.toNat (t.backoffBase.toNat * min (2 ^ n.toNat) (2 ^ 32 - 1)) * 1000000000 := by
  rw [Backoff.delay, hbase, hmax, Backoff.factor_eq]
  exact Duration.nanos_min_times _ _ _

section

variable {key : Key} {past : List Entry}

theorem failuresSince_append (key : Key) (past : List Entry) (e : Entry) :
    failuresSince key (past ++ [e]) = if e.succeeds key then 0 else
      failuresSince key past + if e.counts key then 1 else 0 := by
  rw [failuresSince, List.reverse_append, List.reverse_singleton, List.singleton_append,
    List.takeWhile_cons]
  cases e.succeeds key with
  | true => rfl
  | false => exact List.countP_cons

theorem failuresSince_filter (key : Key) (past : List Entry) :
    failuresSince key (past.filter (·.concerns key)) = failuresSince key past := by
  induction past using List.reverseRecOn with
  | nil => rfl
  | append_singleton past e ih =>
      have hconcerns := e.concerns_eq key
      rw [List.filter_append, failuresSince_append]
      cases hsucceeds : e.succeeds key with
      | true => simp [hconcerns, failuresSince_append, hsucceeds]
      | false => cases hcounts : e.counts key <;>
          simp [hconcerns, failuresSince_append, hsucceeds, hcounts, ih]

theorem failuresSince_mono {later : List Entry} (h : ∀ e ∈ later, e.succeeds key = false) :
    failuresSince key past ≤ failuresSince key (past ++ later) := by
  induction later using List.reverseRecOn with
  | nil => simp
  | append_singleton later e ih =>
      rw [List.forall_mem_append] at h
      have hlast := h.2 e List.mem_cons_self
      rw [← List.append_assoc, failuresSince_append, hlast]
      exact Nat.le_add_right_of_le (ih h.1)

end

/-- What is counted under every key is what has failed, as far as one can count. -/
structure Backoff.Counts (t : Tuning) (past : List Entry) (b : Backoff) : Prop where
  base : b.base = t.backoff.base
  max : b.max = t.backoff.max
  failures (key : Key) : (b.failuresOf key).toNat = min (failuresSince key past) (2 ^ 32 - 1)

namespace Backoff.Counts

variable {t : Tuning} {past : List Entry} {b : Backoff}

theorem start (t : Tuning) : Counts t [] t.backoff where
  base := rfl
  max := rfl
  failures _ := rfl

theorem skip {e : Entry} (h : Counts t past b) (he : ∀ key, e.concerns key = false) :
    Counts t (past ++ [e]) b where
  base := h.base
  max := h.max
  failures key := by
    have hnot := he key
    rw [Entry.concerns, Bool.or_eq_false_iff] at hnot
    simp [failuresSince_append, hnot, h.failures]

theorem reset {trigger : McpServer} (h : Counts t past b) :
    Counts t (past ++ [.passed trigger (.ok ())]) (b.reset (Key.of .server trigger)) where
  base := h.base
  max := h.max
  failures key := by
    rw [failuresSince_append, failuresOf_reset, Entry.succeeds_ok, Entry.counts_passed]
    by_cases hkey : Key.of .server trigger = key
    · simp [hkey]
    · simpa [hkey] using h.failures key

theorem next {server : McpServer} {error : PassError} (h : Counts t past b)
    (herror : error.isConflict = false) (action : Action) :
    Counts t (past ++ [.failed server error action]) (b.next (Key.of .server server)).2 where
  base := h.base
  max := h.max
  failures key := by
    rw [failuresSince_append, failuresOf_next, Entry.succeeds_failed, Entry.counts_failed, herror]
    by_cases hkey : Key.of .server server = key
    · subst hkey
      have hcount := h.failures (Key.of .server server)
      simp only [if_true, toNat_succSaturating, hcount, decide_true, Bool.not_false, Bool.and_true,
        Bool.false_eq_true, if_false]
      omega
    · simpa [hkey] using h.failures key

end Backoff.Counts

namespace Operator

variable {σ : Type} {settings : Settings} {answer : (c : Call) → σ → c.Answer × σ} {t : Tuning}
  {past rest : List Entry}

theorem counts_step {op : Operator σ} (h : op.backoff.Counts t past) (o : Occurrence σ) :
    (op.step settings answer o).2.backoff.Counts t (past ++ [(op.step settings answer o).1]) := by
  cases o with
  | change f => exact h.skip fun _ => rfl
  | pass now trigger =>
      simp only [step]
      cases ((reconcile settings.gatewayImage now trigger).run answer op.store).1 with
      | error e => exact h.skip fun _ => rfl
      | ok => exact h.reset
  | failure server error =>
      simp only [step, afterFailure]
      cases herror : error.isConflict with
      | true =>
          rw [if_pos rfl]
          apply h.skip
          intro key
          rw [Entry.concerns_eq, Entry.succeeds_failed, Entry.counts_failed, herror]
          simp
      | false =>
          rw [if_neg Bool.false_ne_true]
          exact h.next herror _

theorem exists_step {op : Operator σ} {before : List Entry} (h : op.backoff.Counts t before)
    {occurrences : List (Occurrence σ)} {e : Entry}
    (hlog : op.log settings answer occurrences = past ++ e :: rest) :
    ∃ (op' : Operator σ) (o : Occurrence σ), op'.backoff.Counts t (before ++ past) ∧
      (op'.step settings answer o).1 = e := by
  induction occurrences generalizing op before past with
  | nil => cases past <;> cases hlog
  | cons o later ih =>
      cases past with
      | nil =>
          obtain ⟨hfirst, -⟩ := List.cons.inj hlog
          rw [List.append_nil]
          exact ⟨op, o, h, hfirst⟩
      | cons first past =>
          obtain ⟨hfirst, hlater⟩ := List.cons.inj hlog
          obtain ⟨op', o', hcounts, he⟩ := ih (counts_step h o) hlater
          rw [hfirst, List.append_assoc, List.singleton_append] at hcounts
          exact ⟨op', o', hcounts, he⟩

end Operator

/-- Somebody else has written what was to be written, since it was read. -/
def PassError.Conflict (e : PassError) : Prop := ∃ what, e = .store (.conflict what)

theorem PassError.isConflict_iff (e : PassError) : e.isConflict = true ↔ e.Conflict := by
  constructor
  · intro h
    cases e with
    | store e =>
        cases e with
        | conflict what => exact ⟨what, rfl⟩
        | alreadyExists | timeout | missingResourceVersion | api | transport | request | unreadable | serialization =>
            cases h
    | trigger | invalid | outputs => cases h
  · rintro ⟨what, rfl⟩
    rfl

theorem Settings.backoff_of_valid {settings : Settings} (h : settings.validate = .ok ()) :
    0 < settings.tuning.backoffBase.toNat ∧
      settings.tuning.backoffBase.toNat ≤ settings.tuning.backoffMax.toNat := by
  rw [Settings.validate] at h
  repeat
    split at h
    · cases h
  rename_i hbackoff
  rw [not_or, UInt64.not_lt] at hbackoff
  refine ⟨Nat.pos_of_ne_zero ?_, hbackoff.2⟩
  intro hzero
  exact hbackoff.1 (UInt64.toNat_inj.1 hzero)

/-- What a failed server has to wait, in terms of what has come before. Times are in nanoseconds. -/
structure Waits (t : Tuning) (past : List Entry) (key : Key) (error : PassError) (delay : Duration) :
    Prop where
  immediate : delay.nanos = 0 ↔ error.Conflict
  amount (h : ¬ error.Conflict) : delay.nanos = min t.backoffMax.toNat
    (t.backoffBase.toNat * min (2 ^ failuresSince key past) (2 ^ 32 - 1)) * 1000000000
  least (h : ¬ error.Conflict) : t.backoffBase.toNat * 1000000000 ≤ delay.nanos
  greatest (h : ¬ error.Conflict) : delay.nanos ≤ t.backoffMax.toNat * 1000000000
  doubling (h : ¬ error.Conflict)
    (hmax : t.backoffMax.toNat ≤ t.backoffBase.toNat * (2 ^ 32 - 1)) : delay.nanos =
      min t.backoffMax.toNat (t.backoffBase.toNat * 2 ^ failuresSince key past) * 1000000000
  own : failuresSince key (past.filter (·.concerns key)) = failuresSince key past

theorem min_mul_min_pow {base max : Nat} (h : max ≤ base * (2 ^ 32 - 1)) (n : Nat) :
    min max (base * min (2 ^ n) (2 ^ 32 - 1)) = min max (base * 2 ^ n) := by
  rcases Nat.le_total (2 ^ n) (2 ^ 32 - 1) with hn | hn
  · rw [Nat.min_eq_left hn]
  · rw [Nat.min_eq_right hn, Nat.min_eq_left h,
      Nat.min_eq_left (Nat.le_trans h (Nat.mul_le_mul_left base hn))]

theorem Settings.base_le_of_valid {settings : Settings} (h : settings.validate = .ok ()) (n : Nat) :
    settings.tuning.backoffBase.toNat ≤ min settings.tuning.backoffMax.toNat
      (settings.tuning.backoffBase.toNat * min (2 ^ n) (2 ^ 32 - 1)) := by
  have hfactor : 1 ≤ min (2 ^ n) (2 ^ 32 - 1) := Nat.le_min.2 ⟨Nat.one_le_two_pow, by decide⟩
  exact Nat.le_min.2 ⟨(backoff_of_valid h).2, Nat.le_mul_of_pos_right _ hfactor⟩

theorem Waits.of_amount {settings : Settings} (hvalid : settings.validate = .ok ()) {past : List Entry}
    {key : Key} {error : PassError} {delay : Duration} (herror : ¬ error.Conflict)
    (h : delay.nanos = min settings.tuning.backoffMax.toNat (settings.tuning.backoffBase.toNat *
      min (2 ^ failuresSince key past) (2 ^ 32 - 1)) * 1000000000) :
    Waits settings.tuning past key error delay where
  immediate := by
    have hbase := (settings.backoff_of_valid hvalid).1
    have hle := settings.base_le_of_valid hvalid (failuresSince key past)
    constructor
    · intro hzero
      omega
    · intro hconflict
      exact absurd hconflict herror
  amount _ := h
  least _ := by
    rw [h]
    exact Nat.mul_le_mul_right _ (settings.base_le_of_valid hvalid _)
  greatest _ := by
    rw [h]
    exact Nat.mul_le_mul_right _ (Nat.min_le_left _ _)
  doubling _ hmax := by rw [h, min_mul_min_pow hmax]
  own := failuresSince_filter key past

theorem Waits.of_conflict {past : List Entry} {key : Key} {error : PassError} (t : Tuning)
    (h : error.Conflict) : Waits t past key error .zero where
  immediate := ⟨fun _ => h, fun _ => rfl⟩
  amount := absurd h
  least := absurd h
  greatest := absurd h
  doubling := absurd h
  own := failuresSince_filter key past

theorem Operator.waits_of_log {σ : Type} {settings : Settings} (hvalid : settings.validate = .ok ())
    {answer : (c : Call) → σ → c.Answer × σ} {store : σ} {occurrences : List (Occurrence σ)}
    {past rest : List Entry} {server : McpServer} {error : PassError} {action : Action}
    (hlog : (start settings store).log settings answer occurrences =
      past ++ .failed server error action :: rest) :
    ∃ delay, action = .requeueAfter delay ∧
      Waits settings.tuning past (Key.of .server server) error delay := by
  obtain ⟨op, o, hcounts, he⟩ := exists_step (Backoff.Counts.start settings.tuning) hlog
  cases o with
  | change | pass => cases he
  | failure server' error' =>
      obtain ⟨rfl, rfl, haction⟩ := Entry.failed.inj he
      replace haction : (afterFailure op.backoff server' error').1 = action := haction
      rw [← haction, afterFailure]
      cases herror : error'.isConflict with
      | true =>
          rw [if_pos rfl]
          exact ⟨.zero, rfl, .of_conflict _ (error'.isConflict_iff.1 herror)⟩
      | false =>
          rw [if_neg Bool.false_ne_true]
          refine ⟨_, rfl, .of_amount hvalid ?_ ?_⟩
          · rw [← PassError.isConflict_iff, herror]
            exact Bool.false_ne_true
          · rw [Backoff.next, settings.tuning.delay_nanos hcounts.base hcounts.max, hcounts.failures,
              Backoff.min_pow_min]
            rfl

/-- A pass over a server that is gone goes well, whatever the rest of the store holds. -/
theorem Operator.succeeds_of_deleted {σ : Type} {settings : Settings}
    {answer : (c : Call) → σ → c.Answer × σ} {op : Operator σ} {now : Instant} {trigger : McpServer}
    {name : String} (hname : Pass.nameOf trigger = .ok name)
    (hgone : (answer (.get (Key.of .server trigger)) op.store).1 = .ok none) :
    (op.step settings answer (.pass now trigger)).1.succeeds (Key.of .server trigger) = true := by
  have hresult : ((reconcile settings.gatewayImage now trigger).run answer op.store).1 = .ok () := by
    rw [reconcile, hname]
    simp only [Work.run]
    rw [hgone]
    rfl
  simp only [step, hresult]
  exact decide_eq_true rfl

/-- Whatever happens to an operator, a failed server waits as long as its settings and its own failures
since its last success have it wait. -/
theorem failures_wait {settings : Settings} (hvalid : settings.validate = .ok ()) {σ : Type}
    (answer : (c : Call) → σ → c.Answer × σ) (store : σ) (occurrences : List (Occurrence σ))
    {past rest : List Entry} {server : McpServer} {error : PassError} {action : Action}
    (hlog : (Operator.start settings store).log settings answer occurrences =
      past ++ .failed server error action :: rest) :
    (∀ (op : Operator σ) now trigger name, Pass.nameOf trigger = .ok name →
      (answer (.get (Key.of .server trigger)) op.store).1 = .ok none →
      (op.step settings answer (.pass now trigger)).1.succeeds (Key.of .server trigger) = true) ∧
    ∃ delay, action = .requeueAfter delay ∧
      Waits settings.tuning past (Key.of .server server) error delay ∧
      ∀ between server' error' action' later,
        rest = between ++ .failed server' error' action' :: later →
        Key.of .server server' = Key.of .server server →
        (∀ e ∈ between, e.succeeds (Key.of .server server) = false) →
        ¬ error.Conflict → ¬ error'.Conflict →
        ∃ delay', action' = .requeueAfter delay' ∧ delay.nanos ≤ delay'.nanos := by
  refine ⟨fun _ _ _ _ hname hgone => Operator.succeeds_of_deleted hname hgone, ?_⟩
  obtain ⟨delay, rfl, hwaits⟩ := Operator.waits_of_log hvalid hlog
  refine ⟨delay, rfl, hwaits, ?_⟩
  rintro between server' error' action' later rfl hserver hbetween herror herror'
  rw [← List.cons_append, ← List.append_assoc] at hlog
  obtain ⟨delay', rfl, hwaits'⟩ := Operator.waits_of_log hvalid hlog
  refine ⟨delay', rfl, ?_⟩
  rw [hserver] at hwaits'
  rw [hwaits.amount herror, hwaits'.amount herror']
  have hcount : failuresSince (Key.of .server server) past ≤ failuresSince (Key.of .server server)
      (past ++ .failed server error (.requeueAfter delay) :: between) := by
    apply failuresSince_mono
    rw [List.forall_mem_cons]
    exact ⟨rfl, hbetween⟩
  have hpow : 2 ^ failuresSince (Key.of .server server) past ≤ 2 ^ failuresSince (Key.of .server server)
      (past ++ .failed server error (.requeueAfter delay) :: between) :=
    Nat.pow_le_pow_right (by decide) hcount
  gcongr

namespace Operator

def plainSettings : Settings := ⟨"kmcp", none, none, Gateway.defaultImage, .default⟩

def invalidPort : PassError := .invalid .missingPort

def lostRace : PassError := .store (.conflict "default.echo")

def echoPast : List Entry :=
  [.failed Pass.echoServer invalidPort (.requeueAfter (.ofSeconds 1)), .passed Pass.echoServer (.ok ()),
    .failed Pass.echoServer invalidPort (.requeueAfter (.ofSeconds 1)),
    .failed Pass.echoServer lostRace (.requeueAfter .zero)]

def echoOccurrences : List (Occurrence Memory) :=
  [.failure Pass.echoServer invalidPort, .pass .epoch Pass.echoServer,
    .failure Pass.echoServer invalidPort, .failure Pass.echoServer lostRace,
    .failure Pass.echoServer invalidPort]

theorem log_echoOccurrences : (start plainSettings Memory.empty).log plainSettings Memory.answer
    echoOccurrences = echoPast ++ [.failed Pass.echoServer invalidPort (.requeueAfter (.ofSeconds 2))] := by
  rfl

end Operator

theorem failures_wait_echo : ∃ delay : Duration, delay.nanos = 2000000000 ∧
    (Operator.start Operator.plainSettings Memory.empty).log Operator.plainSettings Memory.answer
      Operator.echoOccurrences =
        Operator.echoPast ++ [.failed Pass.echoServer Operator.invalidPort (.requeueAfter delay)] ∧
    Waits Operator.plainSettings.tuning Operator.echoPast (Key.of .server Pass.echoServer)
      Operator.invalidPort delay := by
  have hvalid : Operator.plainSettings.validate = .ok () := by decide
  obtain ⟨-, delay, hdelay, hwaits, -⟩ := failures_wait hvalid Memory.answer Memory.empty
    Operator.echoOccurrences Operator.log_echoOccurrences
  have hconflict : ¬ Operator.invalidPort.Conflict := by rintro ⟨what, heq⟩; cases heq
  refine ⟨delay, ?_, ?_, hwaits⟩
  · rw [hwaits.amount hconflict]
    decide
  · rw [← hdelay]
    exact Operator.log_echoOccurrences

end McpOperator
