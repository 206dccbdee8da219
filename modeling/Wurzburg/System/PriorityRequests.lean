import Wurzburg.System.Priorities

/-!
# Wurzburg.System.PriorityRequests

What the requests do to the priorities. Only `create_user_priority` creates one,
under its key and with the items it was asked for, each resolved for its user;
and a request cancels only what is its own user's (`serve_ownPriority`). The
answer of a creation is what was found under the key or what was created
(`serve_answeredWith`).
-/

namespace Wurzburg.System

open Wurzburg.Lib Wurzburg.Db Wurzburg.Tb Wurzburg.Api

/-! ### How a request comes to its answer -/

/-- The item was resolved to the accounts of the user. -/
def ResolvedIn (userId : Uuid) (hist : History) (r : ResolvedItem) : Prop :=
  ∃ details, (⟨.db (.getUserProviderDetails userId r.item.providerId), .ok (some details)⟩ :
    Event Eff Eff.Resp) ∈ hist ∧ r.userLedgerId = details.userLedgerAccountId

theorem ResolvedIn.mono {userId : Uuid} {hist hist' : History} {r : ResolvedItem}
    (h : ResolvedIn userId hist r) (hsub : hist ⊆ hist') : ResolvedIn userId hist' r := by
  obtain ⟨details, hmem, hr⟩ := h
  exact ⟨details, hsub hmem, hr⟩

/-- The resolved items are those requested, each resolved for the user. -/
def ResolvedAs (userId : Uuid) (priorities : List PriorityItemRequest) (hist : History)
    (resolved : List ResolvedItem) : Prop :=
  resolved.map (·.item) = priorities ∧ ∀ r ∈ resolved, ResolvedIn userId hist r

section

variable {env : Env} {userId : Uuid} {γ : Type} {hist : History}
  {post : History → Except HttpError γ → Prop}

theorem resolveAccounts_ends (priorities : List PriorityItemRequest) :
    Prog.EndsE (fun h (out : List ResolvedItem × List String) =>
        hist ⊆ h ∧ (∀ r ∈ out.1, ResolvedIn userId h r) ∧
          (out.2 = [] → out.1.map (·.item) = priorities))
      post hist (resolveAccounts userId priorities) := by
  induction priorities generalizing hist with
  | nil => exact ⟨List.Subset.refl _, by simp, fun _ => rfl⟩
  | cons item items ih =>
      refine tryDb_ends.bind (fun h₁ found hh₁ => ih.bind (fun h₂ out ⟨hsub, hall, hitems⟩ => ?_))
      subst hh₁
      have hhist : hist ⊆ h₂ := fun ev hev => hsub (List.mem_append_left _ hev)
      obtain ⟨resolved, errors⟩ := out
      cases found with
      | error e => exact ⟨hhist, hall, fun herrors => by cases herrors⟩
      | ok found =>
          cases found with
          | none => exact ⟨hhist, hall, fun herrors => by cases herrors⟩
          | some details =>
              refine ⟨hhist, ?_, fun herrors => ?_⟩
              · intro r hr
                rcases List.mem_cons.mp hr with rfl | hr
                · exact ⟨details, hsub (List.mem_append_right _ (List.mem_singleton_self _)), rfl⟩
                · exact hall r hr
              · rw [List.map_cons, hitems herrors]

theorem checkItems_ends (priorities : List PriorityItemRequest) (hpost : ∀ h e, post h (.error e)) :
    Prog.EndsE (fun h resolved => ResolvedAs userId priorities h resolved) post hist
      (checkItems userId priorities) := by
  refine (resolveAccounts_ends priorities).bind (fun h₁ out ⟨_, hall, hitems⟩ => ?_)
  obtain ⟨resolved, errors⟩ := out
  simp only
  split
  · next hempty =>
      refine (orFail_ends hpost submit_ends).bind (fun h₂ tbAccounts hh₂ => ?_)
      obtain ⟨i, reply, rfl, -⟩ := hh₂
      split
      · exact ⟨hitems (List.isEmpty_iff.mp hempty),
          fun r hr => (hall r hr).mono (List.subset_append_left _ _)⟩
      · exact hpost _ _
  · exact hpost _ _

end

/-- What a request asks for is created under its key, with the items it lists,
each resolved for its user. -/
structure AsksFor (userId : Uuid) (header : Option String) (payload : CreatePriorityRequest)
    (hist : History) (key : String) (resolved : List ResolvedItem) : Prop where
  usable : usableKey header = some key
  listed : payload.priorities ≠ []
  resolved : ResolvedAs userId payload.priorities hist resolved

/-- A request creates only what it asks for, and cancels only what is its own user's. -/
def OwnPriority (q : Request) (hist : History) : Eff → Prop
  | .db (.createPriorityConfig key userId items _ _) =>
      ∃ header payload, q = .createUserPriority userId header payload ∧
        ∃ resolved, items = resolved.map ResolvedItem.data ∧
          AsksFor userId header payload hist key resolved
  | .db (.cancelActivePriorityConfig userId _) => q.changesPriority userId
  | _ => True

/-- The configuration was found under the key, or created with the requested items. -/
inductive AnsweredWith (userId : Uuid) (priorities : List PriorityItemRequest) (hist : History)
    (d : UserPriorityDetails) : Prop
  | replayed (key : String) :
      (⟨.db (.getPriorityConfigByIdempotencyKey key), .ok (some d)⟩ : Event Eff Eff.Resp) ∈ hist →
      AnsweredWith userId priorities hist d
  | created (key : String) (expiresAt : Option Timestamp) (resolved : List ResolvedItem)
      (before : History) : ResolvedAs userId priorities before resolved →
      (⟨.db (.createPriorityConfig key userId (resolved.map ResolvedItem.data) expiresAt userId),
        .ok d⟩ : Event Eff Eff.Resp) ∈ hist → AnsweredWith userId priorities hist d

section

variable {env : Env} {userId : Uuid} {γ : Type} {hist before : History}
  {priorities : List PriorityItemRequest} {resolved : List ResolvedItem}

theorem publishPriority_ends {post : History → Except HttpError γ → Prop}
    (hpost : ∀ h e, post h (.error e)) (key : String) (expiresAt : Option Timestamp)
    (hresolved : ResolvedAs userId priorities before resolved) :
    Prog.EndsE (fun h (out : StatusCode × PriorityConfigResponse) =>
        AnsweredWith userId priorities h out.2.data) post hist
      (publishPriority env userId key resolved expiresAt) := by
  refine (perform_ends hpost).bind (fun h₁ d hh₁ => ?_)
  have hmem : (⟨.db (.createPriorityConfig key userId (resolved.map ResolvedItem.data) expiresAt
      userId), .ok d⟩ : Event Eff Eff.Resp) ∈ h₁ :=
    hh₁ ▸ List.mem_append_right _ (List.mem_singleton_self _)
  refine (ttlNow_ends expiresAt).bind (fun h₂ at_ hsub => ?_)
  refine (redis_ends hpost).bind (fun h₃ _ hh₃ => ?_)
  exact .created key expiresAt resolved before hresolved
    (hh₃ ▸ List.mem_append_left _ (hsub hmem))

theorem replacePriority_ends {post : History → Except HttpError γ → Prop}
    (hpost : ∀ h e, post h (.error e)) (key : String) (expiresAt : Option Timestamp)
    (hresolved : ResolvedAs userId priorities before resolved) :
    Prog.EndsE (fun h (out : StatusCode × PriorityConfigResponse) =>
        AnsweredWith userId priorities h out.2.data) post hist
      (replacePriority env userId key resolved expiresAt) := by
  refine (redis_ends hpost).bind (fun h₁ _ _ => (redis_ends hpost).bind (fun h₂ _ _ => ?_))
  refine (db_ends hpost).bind (fun h₃ active _ => ?_)
  split
  · exact (db_ends hpost).bind (fun h₄ _ _ => publishPriority_ends hpost key expiresAt hresolved)
  · exact publishPriority_ends hpost key expiresAt hresolved

theorem createUserPriority_ends {post : History → Except HttpError γ → Prop}
    (hpost : ∀ h e, post h (.error e)) (header : Option String) (payload : CreatePriorityRequest) :
    Prog.EndsE (fun h (out : StatusCode × PriorityConfigResponse) =>
        AnsweredWith userId payload.priorities h out.2.data) post hist
      (createUserPriority env userId header payload) := by
  unfold createUserPriority
  split
  · exact hpost _ _
  · refine (orElse_ends hpost).bind (fun h₁ key _ => tryDb_ends.bind (fun h₂ known hh₂ => ?_))
    have hrest : Prog.EndsE (fun h (out : StatusCode × PriorityConfigResponse) =>
        AnsweredWith userId payload.priorities h out.2.data) post h₂
        (checkItems userId payload.priorities >>= fun resolved =>
          replacePriority env userId key resolved payload.expiresAt) :=
      (checkItems_ends payload.priorities hpost).bind (fun h₃ resolved hresolved =>
        replacePriority_ends hpost key payload.expiresAt hresolved)
    cases known with
    | error e => exact hrest
    | ok known =>
        cases known with
        | none => exact hrest
        | some d => exact .replayed key (hh₂ ▸ List.mem_append_right _ (List.mem_singleton_self _))

end

/-- Every answer to `create_user_priority` comes about like this. -/
theorem serve_answeredWith (env : Env) (q : Request) :
    (serve env q).Ends (fun hist a => ∀ userId header payload status r,
      q = .createUserPriority userId header payload → a = .ok (status, .priority r) →
      AnsweredWith userId payload.priorities hist r.data) [] := by
  cases q with
  | createUserPriority userId header payload =>
      have hends : Prog.EndsE (fun h (out : StatusCode × PriorityConfigResponse) =>
          AnsweredWith userId payload.priorities h out.2.data)
          (fun _ (_ : Except HttpError (StatusCode × PriorityConfigResponse)) => True) []
          (createUserPriority env userId header payload) :=
        createUserPriority_ends (fun _ _ => trivial) header payload
      refine answerWith_ends hends ?_ ?_
      · intro hist out hout userId' header' payload' status r hq ha
        obtain ⟨rfl, rfl, rfl⟩ := Request.createUserPriority.inj hq
        obtain ⟨-, hr⟩ := Prod.mk.inj (Except.ok.inj ha)
        rw [← Body.priority.inj hr]
        exact hout
      · intro hist e _ _ _ _ _ _ _ ha
        cases ha
  | _ => exact Prog.Ends.of_forall (fun _ _ _ _ _ _ _ hq => by cases hq) _

/-! ### What is created -/

theorem ResolvedAs.mono {userId : Uuid} {priorities : List PriorityItemRequest}
    {hist hist' : History} {resolved : List ResolvedItem}
    (h : ResolvedAs userId priorities hist resolved) (hsub : hist ⊆ hist') :
    ResolvedAs userId priorities hist' resolved :=
  ⟨h.1, fun r hr => (h.2 r hr).mono hsub⟩

theorem AsksFor.mono {userId : Uuid} {header : Option String} {payload : CreatePriorityRequest}
    {hist hist' : History} {key : String} {resolved : List ResolvedItem}
    (h : AsksFor userId header payload hist key resolved) (hsub : hist ⊆ hist') :
    AsksFor userId header payload hist' key resolved :=
  ⟨h.usable, h.listed, h.resolved.mono hsub⟩

theorem Eff.isRead.ownPriority {q : Request} {hist : History} {e : Eff} (h : e.isRead) :
    OwnPriority q hist e := by
  cases e with
  | db call => cases call <;> first | exact h.elim | trivial
  | _ => trivial

section

variable {env : Env} {userId : Uuid} {header : Option String} {payload : CreatePriorityRequest}
  {hist : History} {key : String} {resolved : List ResolvedItem}

theorem publishPriority_issues (expiresAt : Option Timestamp)
    (hasks : AsksFor userId header payload hist key resolved) :
    Prog.IssuesE (OwnPriority (.createUserPriority userId header payload)) hist
      (publishPriority env userId key resolved expiresAt) := by
  refine ⟨⟨header, payload, rfl, resolved, rfl, hasks⟩, fun r => ?_⟩
  cases r with
  | error e => trivial
  | ok d =>
      cases expiresAt with
      | none =>
          refine ⟨trivial, fun r => ?_⟩
          cases r <;> trivial
      | some t =>
          refine ⟨trivial, fun at_ => ⟨trivial, fun r => ?_⟩⟩
          cases r <;> trivial

theorem replacePriority_issues (expiresAt : Option Timestamp)
    (hasks : AsksFor userId header payload hist key resolved) :
    Prog.IssuesE (OwnPriority (.createUserPriority userId header payload)) hist
      (replacePriority env userId key resolved expiresAt) := by
  have hlater : ∀ new, AsksFor userId header payload (hist ++ new) key resolved :=
    fun new => hasks.mono (List.subset_append_left _ _)
  refine ⟨trivial, fun r => ?_⟩
  cases r with
  | error e => trivial
  | ok _ =>
      refine ⟨trivial, fun r => ?_⟩
      cases r with
      | error e => trivial
      | ok _ =>
          refine ⟨trivial, fun r => ?_⟩
          cases r with
          | error e => trivial
          | ok found =>
              simp only [List.append_assoc]
              cases found with
              | none => exact publishPriority_issues expiresAt (hlater _)
              | some d =>
                  refine ⟨rfl, fun r => ?_⟩
                  cases r with
                  | error e => trivial
                  | ok _ =>
                      simp only [List.append_assoc]
                      exact publishPriority_issues expiresAt (hlater _)

theorem createUserPriority_issues :
    Prog.IssuesE (OwnPriority (.createUserPriority userId header payload)) hist
      (createUserPriority env userId header payload) := by
  have hread : ∀ {α : Type} {x : Handler α} {h : History}, Prog.UsesE Eff.isRead x →
      Prog.IssuesE (OwnPriority (.createUserPriority userId header payload)) h x :=
    fun hx => Prog.Issues.of_uses (fun _ _ he => he.ownPriority) hx
  unfold createUserPriority
  split
  · trivial
  · next hlisted =>
    refine (hread orElse_uses).bind (orElse_ends (fun _ _ => trivial)) (fun h₁ key hkey => ?_)
    have hknown : Prog.UsesE Eff.isRead (tryDb (.getPriorityConfigByIdempotencyKey key)) :=
      tryDb_uses trivial
    refine (hread hknown).bind tryDb_ends (fun h₂ known _ => ?_)
    split
    · trivial
    · refine (hread (checkItems_uses ..)).bind (checkItems_ends _ (fun _ _ => trivial)) ?_
      intro h₃ resolved hresolved
      refine replacePriority_issues payload.expiresAt ⟨hkey.2, fun heq => hlisted ?_, hresolved⟩
      rw [heq]
      rfl

end

/-- Effects that create no priority, and cancel only what is the request's own. -/
def Eff.cancelsOwn (q : Request) : Eff → Prop
  | .db (.createPriorityConfig ..) => False
  | .db (.cancelActivePriorityConfig userId _) => q.changesPriority userId
  | _ => True

theorem Eff.cancelsOwn.ownPriority {q : Request} {hist : History} {e : Eff}
    (h : e.cancelsOwn q) : OwnPriority q hist e := by
  cases e with
  | db call => cases call <;> first | exact h.elim | exact h
  | _ => trivial

theorem Eff.isRead.cancelsOwn {q : Request} {e : Eff} (h : e.isRead) : e.cancelsOwn q := by
  cases e with
  | db call => cases call <;> first | exact h.elim | trivial
  | _ => trivial

theorem Eff.sparesPriorities.cancelsOwn {q : Request} {e : Eff} (h : e.sparesPriorities) :
    e.cancelsOwn q := by
  cases e with
  | db call => cases call <;> first | exact h.elim | trivial
  | _ => trivial

section

variable {env : Env} {q : Request}

theorem newV4_uses {use : IdUse} : Prog.UsesE (Eff.cancelsOwn q) (newV4 use) :=
  ⟨trivial, fun _ => trivial⟩

theorem createAccount_cancelsOwn {γ : Type} {a : AppAccount} {f : String → HttpError}
    {g : List AppCreateAccountsResult → Handler γ} (hg : ∀ rs, Prog.UsesE (Eff.cancelsOwn q) (g rs)) :
    Prog.UsesE (Eff.cancelsOwn q) (orFail (createAccount a) f >>= g) :=
  .bind (orFail_uses (submit_uses trivial (fun _ => trivial))) hg

theorem createProvider_cancelsOwn (payload : CreateProviderRequest) :
    Prog.UsesE (Eff.cancelsOwn q) (Api.createProvider env payload) := by
  refine .bind (now_uses trivial) (fun at_ => ?_)
  simp only
  split
  · refine .bind newV4_uses (fun providerId => .bind newV4_uses (fun lid => ?_))
    refine .bind newV4_uses (fun actorId => createAccount_cancelsOwn (fun _ => ?_))
    refine .bind newV4_uses (fun passwordId => .bind (db_uses trivial) (fun _ => ?_))
    exact .bind (setUpKafka_uses (fun _ => trivial) _) (fun _ => .pure _)
  · exact .throw _

theorem createOrLink_cancelsOwn (payload : CreateUserRequest) :
    Prog.UsesE (Eff.cancelsOwn q) (createOrLink env payload) := by
  refine .bind (now_uses trivial) (fun requestTime => .bind newV4_uses (fun lid => ?_))
  refine .bind newV4_uses (fun actorId => .bind (db_uses trivial) (fun ⟨user, account⟩ => ?_))
  simp only
  split
  · exact createAccount_cancelsOwn (fun _ => .pure _)
  · exact .pure _

theorem seedAll_cancelsOwn (seeds : List SystemAccountSeed) :
    Prog.UsesE (Eff.cancelsOwn q) (seedAll env seeds) := by
  induction seeds with
  | nil => exact .pure _
  | cons seed seeds ih =>
      refine .bind ?_ (fun _ => ih)
      unfold seedSystemAccount
      split
      · exact .throw _
      · refine .bind (Prog.Uses.bind (submit_uses trivial (fun _ => trivial)) (fun _ => trivial))
          (fun _ => .bind ⟨trivial, fun _ => trivial⟩ (fun _ => .pure _))

theorem cancelPriorityNaming_cancelsOwn (p : Uuid) {u : Uuid} (hq : q.changesPriority u) :
    Prog.UsesE (Eff.cancelsOwn q) (cancelPriorityNaming p u) :=
  cancelPriorityNaming_uses trivial hq (fun _ => trivial)

theorem transferHandler_cancelsOwn {d : Direction} {p u : Uuid} {payload : TransferRequest}
    (hq : q = transferRequest d p u payload) : Prog.UsesE (Eff.cancelsOwn q) (transferHandler env d p u payload) := by
  refine .bind ((admission_uses p u payload).mono (fun _ h => h.cancelsOwn)) (fun a => ?_)
  cases a with
  | answered response => exact .pure _
  | admitted ud pd =>
      have hsettle : Prog.UsesE (Eff.cancelsOwn q) (settle env d p u payload ud pd) :=
        (settle_uses d p payload ud pd).mono (fun _ h => h.cancelsOwn)
      cases d with
      | credit => exact hsettle
      | debit =>
          have howner : q.changesPriority u := by
            rw [hq]
            exact rfl
          exact .bind (cancelPriorityNaming_cancelsOwn p howner) (fun _ => hsettle)

theorem cancelActiveUserPriority_cancelsOwn {userId : Uuid} (hq : q.changesPriority userId) :
    Prog.UsesE (Eff.cancelsOwn q) (cancelActiveUserPriority userId) := by
  refine .bind (db_uses hq) (fun found => ?_)
  cases found with
  | none => exact .throw _
  | some details =>
      exact .bind (redis_uses trivial) (fun _ => .bind (redis_uses trivial) (fun _ => .pure _))

/-- Only `create_user_priority` creates, and it creates what it was asked for; and a
request cancels only what is its own user's. -/
theorem serve_ownPriority (env : Env) (q : Request) : (serve env q).Issues (OwnPriority q) [] := by
  have none : ∀ {p : Io Answer}, p.Uses (Eff.cancelsOwn q) → p.Issues (OwnPriority q) [] :=
    fun hp => Prog.Issues.of_uses (fun _ _ he => he.ownPriority) hp
  have reads : ∀ {p : Io Answer}, p.Uses Eff.isRead → p.Issues (OwnPriority q) [] :=
    fun hp => none (hp.mono (fun _ he => he.cancelsOwn))
  cases q with
  | createUserPriority userId header payload =>
      exact Prog.Issues.bind createUserPriority_issues (Prog.Ends.of_forall
        (fun _ _ => trivial) _) (fun _ _ (_ : True) => trivial)
  | seedSystemAccounts => exact none (Prog.Uses.bind (seedAll_cancelsOwn _) (fun _ => trivial))
  | createProvider payload =>
      exact none (Prog.Uses.bind (createProvider_cancelsOwn payload) (fun _ => trivial))
  | createOrLink payload =>
      exact none (Prog.Uses.bind (createOrLink_cancelsOwn payload) (fun _ => trivial))
  | creditUser p u payload =>
      exact none (Prog.Uses.bind (transferHandler_cancelsOwn (d := .credit) rfl) (fun _ => trivial))
  | debitUser p u payload =>
      exact none (Prog.Uses.bind (transferHandler_cancelsOwn (d := .debit) rfl) (fun _ => trivial))
  | cancelActiveUserPriority u =>
      exact none (Prog.Uses.bind (cancelActiveUserPriority_cancelsOwn rfl) (fun _ => trivial))
  | getProvider id => exact reads (Prog.Uses.bind (getProvider_uses id) (fun _ => trivial))
  | getUser u p => exact reads (Prog.Uses.bind (getUser_uses u p) (fun _ => trivial))
  | getUserBalance u =>
      exact reads (Prog.Uses.bind (Prog.UsesE.bind (getUserBalance_uses u) (fun _ => .pure _))
        (fun _ => trivial))
  | getActiveUserPriority u =>
      exact reads (Prog.Uses.bind (getActiveUserPriority_uses u) (fun _ => trivial))
  | getAllUserPriorities u =>
      exact reads (Prog.Uses.bind (getAllUserPriorities_uses u) (fun _ => trivial))

end

/-! ### What a lookup showed -/

/-- The account that a lookup of a user's provider returned is there. -/
def DetailsFact (ev : Event Eff Eff.Resp) (w : World) : Prop :=
  ∀ u p details, ev = ⟨.db (.getUserProviderDetails u p), .ok (some details)⟩ →
    ∃ ua ∈ w.pg.userAccounts, ua.pair = (u, p) ∧ ua.ledgerAccountId = details.userLedgerAccountId

theorem exec_detailsFact {w w' : World} {capacity : Nat} {ch : Choice} {e : Eff} {r : e.Resp}
    (hx : w.exec capacity ch e = some (r, w')) : DetailsFact ⟨e, r⟩ w' := by
  intro u p details hev
  obtain ⟨rfl, hr⟩ := Event.mk.inj hev
  obtain rfl := eq_of_heq hr
  exact Returned.details ⟨ch, w, (World.dbExec_row hx).2⟩

theorem Reachable.detailsFact {env : Env} {c : State} (h : Reachable env c) {t : Serving}
    (ht : t ∈ c.tasks) {u p : Uuid} {details : UserProviderDetails}
    (hev : (⟨.db (.getUserProviderDetails u p), .ok (some details)⟩ : Event Eff Eff.Resp) ∈ t.hist) :
    ∃ ua ∈ c.world.pg.userAccounts, ua.pair = (u, p) ∧
      ua.ledgerAccountId = details.userLedgerAccountId := by
  obtain ⟨now, hreach⟩ := h
  have hfacts : ∀ t ∈ c.tasks, Machine.Remembers (fun _ ev w => DetailsFact ev w) t.hist c.world := by
    refine Reachable.facts (fun _ _ ev w w' hg hfact u p details hev => ?_)
      (fun _ _ _ _ _ _ _ _ _ _ _ _ _ hx => exec_detailsFact hx) hreach
    obtain ⟨ua, hua, hrest⟩ := hfact u p details hev
    exact ⟨ua, hg.pg.userAccounts.subset hua, hrest⟩
  obtain ⟨past, rest, heq⟩ := List.append_of_mem hev
  exact hfacts t ht past _ rest heq u p details rfl

end Wurzburg.System
