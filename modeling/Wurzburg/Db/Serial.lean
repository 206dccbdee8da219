import Wurzburg.Db.Sessions

/-!
# Wurzburg.Db.Serial

Sessions on several connections against calls that run in one step each.

What the sessions have committed can be what their calls leave when each is run in one
step (`Repo.transact`), one call after the other in the order of the commits
(`Store.Serial`). Then what is proved of calls that run in one step holds of what
interleaved ones leave. A store stays so when each of its commits does what its call
does in one step at that moment (`Store.Serial.step`).
-/

namespace Wurzburg.Db

variable {C α : Type}

/-! ### Calls in turn -/

/-- A call, with the clock and the UUIDs of its transaction. -/
structure Issued (C : Type) where
  call : C
  now : Timestamp
  uuid : Nat → Uuid

def Session.issued (s : Session C α) : Issued C := ⟨s.call, s.now, s.uuid⟩

/-- The calls, run in one step each and one after the other, succeed with these results and
lead from the one database to the other. -/
inductive InTurn (body : C → Repo α) (pg : Pg) : List (Issued C × α) → Pg → Prop where
  | nil : InTurn body pg [] pg
  | snoc {calls : List (Issued C × α)} {pg₁ pg₂ : Pg} {i : Issued C} {r : α} {n : Nat}
      (before : InTurn body pg calls pg₁)
      (run : (body i.call).transact pg₁ i.now i.uuid = (.ok r, pg₂, n)) :
      InTurn body pg (calls ++ [(i, r)]) pg₂

/-- The session has returned this result of this call. -/
def Session.Gave (s : Session C α) (call : Issued C × α) : Prop :=
  s.issued = call.1 ∧ s.result? = some (.ok call.2)

theorem Session.Moves.issued {s s' : Session C α} {pg pg' : Pg} {m : Session.Move}
    (h : s.Moves pg m s' pg') : s'.issued = s.issued := by
  cases h <;> rfl

/-- A session that has returned stays so. -/
theorem Session.Moves.gave {s s' : Session C α} {pg pg' : Pg} {m : Session.Move}
    (h : s.Moves pg m s' pg') {call : Issued C × α} (hs : s.Gave call) : s'.Gave call := by
  refine ⟨h.issued.trans hs.1, ?_⟩
  rcases h.result? with rfl | hnone
  · cases h with
    | find => exact hs.2
  · rw [hs.2] at hnone
    cases hnone

/-! ### Stores -/

/-- The sessions of `order`, which have returned, are those that have committed: their calls
in turn leave what is committed, as far as `same` compares it. Every successful call of a
kind that has to commit is among them. -/
structure Store.Serial (body : C → Repo α) (same : Pg → Pg → Prop) (writes : C → Prop) (pg : Pg)
    (st : Store C α) (order : List Nat) : Prop where
  once : order.Nodup
  serial : ∃ calls pg',
    List.Forall₂ (fun i call => ∃ s, st.sessions[i]? = some s ∧ s.Gave call) order calls ∧
      InTurn body pg calls pg' ∧ same pg' st.pg
  complete : ∀ (i : Nat) s r, st.sessions[i]? = some s → writes s.call →
    s.result? = some (.ok r) → i ∈ order

namespace Store

variable {body : C → Repo α} {same : Pg → Pg → Prop} {writes : C → Prop} {pg : Pg}
  {st st' : Store C α} {order : List Nat}

theorem Serial.start (hsame : same pg pg) : Serial body same writes pg (.start pg) [] where
  once := .nil
  serial := ⟨[], pg, .nil, .nil, hsame⟩
  complete := fun i s r hs => by cases hs

/-- Sessions that have returned are still there. -/
theorem step_gave {act : Act C} (h : st.step body act = some st') {i : Nat} {call : Issued C × α}
    (hs : ∃ s, st.sessions[i]? = some s ∧ s.Gave call) :
    ∃ s, st'.sessions[i]? = some s ∧ s.Gave call := by
  obtain ⟨s, hs, hgave⟩ := hs
  have hi := (List.getElem?_eq_some_iff.mp hs).1
  cases act with
  | begin call' now uuid =>
      obtain rfl := Option.some.inj h
      exact ⟨s, (List.getElem?_append_left hi).trans hs, hgave⟩
  | move j m =>
      obtain ⟨o, o', ho, hmoves, hset, -⟩ := step_move_at h
      rw [hset]
      by_cases hij : j = i
      · subst hij
        obtain rfl := Option.some.inj (ho.symm.trans hs)
        exact ⟨o', List.getElem?_set_self hi, hmoves.gave hgave⟩
      · exact ⟨s, (List.getElem?_set_ne hij).trans hs, hgave⟩

/-- What a move does to what is committed: nothing, and then no call that has to commit
returns with success; or what the call of the session does in one step, whose result the
session returns. -/
inductive Atomic (body : C → Repo α) (same : Pg → Pg → Prop) (writes : C → Prop) (pg : Pg)
    (s s' : Session C α) (pg' : Pg) : Prop
  | silent (kept : ∀ pg₁, same pg₁ pg → same pg₁ pg')
      (returns : ∀ r, writes s.call → s.result? = none → s'.result? ≠ some (.ok r))
  | commits (running : s.result? = none)
      (run : ∀ pg₁, same pg₁ pg → ∃ r pg₂ n,
        (body s.call).transact pg₁ s.now s.uuid = (.ok r, pg₂, n) ∧ same pg₂ pg' ∧
          s'.result? = some (.ok r))

/-- The sessions that have returned after a move: those of before, or the one that moved. -/
theorem returned_of_move {i j : Nat} {m : Session.Move} {s s' o : Session C α} {r : α}
    (hmoves : s.Moves st.pg m s' st'.pg) (hs : st.sessions[i]? = some s)
    (hset : st'.sessions = st.sessions.set i s') (ho : st'.sessions[j]? = some o)
    (hr : o.result? = some (.ok r)) :
    (∃ o', st.sessions[j]? = some o' ∧ o'.call = o.call ∧ o'.result? = some (.ok r)) ∨
      j = i ∧ o = s' ∧ s.result? = none := by
  rw [hset] at ho
  by_cases hij : i = j
  · subst hij
    rw [List.getElem?_set_self (List.getElem?_eq_some_iff.mp hs).1] at ho
    obtain rfl := Option.some.inj ho
    rcases hmoves.result? with rfl | hnone
    · generalize st'.pg = pg' at hmoves
      cases hmoves with
      | find => exact Or.inl ⟨s, hs, rfl, hr⟩
    · exact Or.inr ⟨rfl, rfl, hnone⟩
  · rw [List.getElem?_set_ne hij] at ho
    exact Or.inl ⟨o, ho, rfl, hr⟩

/-- **One step** of a store whose moves are atomic: the order stays, or the session that
moves comes last in it. -/
theorem Serial.step (h : Serial body same writes pg st order) {act : Act C}
    (hbegin : ∀ call now uuid r, writes call →
      (Session.begin call (body call) now uuid).result? ≠ some (.ok r))
    (hstep : st.step body act = some st')
    (hatomic : ∀ m, ∀ s ∈ st.sessions, ∀ s', s.Moves st.pg m s' st'.pg →
      Atomic body same writes st.pg s s' st'.pg) :
    Serial body same writes pg st' order ∨ ∃ i, Serial body same writes pg st' (order ++ [i]) := by
  obtain ⟨calls, pg₁, hcalls, hturn, hsame⟩ := h.serial
  have hcalls' : List.Forall₂ (fun i call => ∃ s, st'.sessions[i]? = some s ∧ s.Gave call)
      order calls := hcalls.imp (fun _ _ => step_gave hstep)
  cases act with
  | begin call now uuid =>
      obtain rfl := Option.some.inj hstep
      refine Or.inl ⟨h.once, ⟨calls, pg₁, hcalls', hturn, hsame⟩, fun i s r hs hwrites hr => ?_⟩
      by_cases hi : i < st.sessions.length
      · rw [List.getElem?_append_left hi] at hs
        exact h.complete i s r hs hwrites hr
      · rw [List.getElem?_append_right (Nat.le_of_not_lt hi)] at hs
        rw [List.mem_singleton.mp (List.mem_of_getElem? hs)] at hwrites hr
        exact absurd hr (hbegin call now uuid r hwrites)
  | move i m =>
      obtain ⟨s, s', hs, hmoves, hset, -⟩ := step_move_at hstep
      cases hatomic m s (List.mem_of_getElem? hs) s' hmoves with
      | silent kept returns =>
          refine Or.inl ⟨h.once, ⟨calls, pg₁, hcalls', hturn, kept pg₁ hsame⟩,
            fun j o r ho hwrites hr => ?_⟩
          rcases returned_of_move hmoves hs hset ho hr with
            ⟨o', ho', hcall, hr'⟩ | ⟨rfl, rfl, hnone⟩
          · exact h.complete j o' r ho' (hcall ▸ hwrites) hr'
          · have hcall : o.call = s.call := congrArg Issued.call hmoves.issued
            exact absurd hr (returns r (hcall ▸ hwrites) hnone)
      | commits running run =>
          obtain ⟨r, pg₂, n, htx, hsame', hr⟩ := run pg₁ hsame
          -- it has not returned before, and so is not among those that have committed
          have hnew : i ∉ order := by
            intro hmem
            obtain ⟨k, hk, rfl⟩ := List.getElem_of_mem hmem
            obtain ⟨o, ho, hgave⟩ := hcalls.get hk (hcalls.length_eq ▸ hk)
            obtain rfl := Option.some.inj (hs.symm.trans ho)
            rw [hgave.2] at running
            cases running
          have hlast : st'.sessions[i]? = some s' := by
            rw [hset]
            exact List.getElem?_set_self (List.getElem?_eq_some_iff.mp hs).1
          refine Or.inr ⟨i, ⟨?_, ⟨calls ++ [(s.issued, r)], pg₂, ?_, hturn.snoc htx, hsame'⟩, ?_⟩⟩
          · exact List.nodup_append.mpr ⟨h.once, List.nodup_singleton i, by
              rintro j hj k hk rfl
              exact hnew (List.mem_singleton.mp hk ▸ hj)⟩
          · exact List.rel_append hcalls' (.cons ⟨s', hlast, hmoves.issued, hr⟩ .nil)
          · intro j o r' ho hwrites hr'
            rcases returned_of_move hmoves hs hset ho hr' with
              ⟨o', ho', hcall, hr₀⟩ | ⟨rfl, rfl, -⟩
            · exact List.mem_append_left _ (h.complete j o' r' ho' (hcall ▸ hwrites) hr₀)
            · exact List.mem_append_right _ (List.mem_singleton_self j)

/-- **Every run**: where an invariant makes all moves atomic, the sessions that have committed
are in turn, and those that commit later come after them. -/
theorem serializable {I : Store C α → Prop} (hsame : same pg pg) (hstart : I (.start pg))
    (hstep : ∀ {st st' : Store C α} {act : Act C}, I st → st.step body act = some st' → I st')
    (hbegin : ∀ call now uuid r, writes call →
      (Session.begin call (body call) now uuid).result? ≠ some (.ok r))
    (hatomic : ∀ {st : Store C α} {m : Session.Move} {s s' : Session C α} {pg' : Pg}, I st →
      s ∈ st.sessions → s.Moves st.pg m s' pg' → Atomic body same writes st.pg s s' pg')
    (h : Leads body (.start pg) st) (h' : Leads body st st') :
    ∃ order more, Serial body same writes pg st order ∧
      Serial body same writes pg st' (order ++ more) := by
  have hrun : ∀ {st st' : Store C α} {order : List Nat}, Leads body st st' → I st →
      Serial body same writes pg st order →
        I st' ∧ ∃ more, Serial body same writes pg st' (order ++ more) := by
    intro st st' order hl hinv hserial
    induction hl with
    | refl => exact ⟨hinv, [], (List.append_nil order).symm ▸ hserial⟩
    | step act hl hact ih =>
        obtain ⟨hinv', more, hmore⟩ := ih
        refine ⟨hstep hinv' hact, ?_⟩
        rcases hmore.step hbegin hact (fun m s hs s' hmoves => hatomic hinv' hs hmoves) with
          hstays | ⟨i, hi⟩
        · exact ⟨more, hstays⟩
        · exact ⟨more ++ [i], List.append_assoc order more [i] ▸ hi⟩
  obtain ⟨hinv, order, horder⟩ := hrun h hstart (.start hsame)
  obtain ⟨-, more, hmore⟩ := hrun h' hinv horder
  exact ⟨order, more, horder, hmore⟩

end Store

end Wurzburg.Db
