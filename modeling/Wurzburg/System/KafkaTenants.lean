import Wurzburg.System.Footprint
import Wurzburg.System.Histories

/-!
# Wurzburg.System.KafkaTenants

For whom the service administers Kafka: a command is only ever issued for a provider
that is in the database, with the topic, the user and the password that its row holds
(`Reachable.tenantCommand`).

The handler draws the settings, has the repository store them, and issues the commands
after that; the row is still there whenever a command is issued, because rows of
providers are only added.
-/

namespace Wurzburg.System

open Wurzburg.Lib Wurzburg.Db Wurzburg.Tb Wurzburg.Api

/-- The administration commands for the Kafka settings of a provider. -/
def kafkaCommands (s : ProviderKafkaSettings) : List KafkaCmd :=
  [.createProviderTopic s.topic,
   .createScramUser s.username s.password,
   .grantConsumerAcls s.topic s.username]

/-- The row of the provider holds these settings, and they were drawn for it. -/
structure SettingsOf (env : Env) (p : Provider) (s : ProviderKafkaSettings) : Prop where
  stored : p.kafkaConfig = env.kafkaToJson s
  drawn : ∃ passwordId, s = newKafkaSettings env p.id passwordId

theorem SettingsOf.of_stored {env : Env} {p : Provider} {s : ProviderKafkaSettings}
    (h : SettingsOf env p s) : SettingsOf env p.stored s := ⟨h.stored, h.drawn⟩

/-- The command is for a provider in the database. -/
def TenantCommand (env : Env) (pg : Pg) (cmd : KafkaCmd) : Prop :=
  ∃ p ∈ pg.providers, ∃ s, SettingsOf env p s ∧ cmd ∈ kafkaCommands s

/-- Kafka is administered for a provider that has been created before. -/
def RecordsFirst (env : Env) (hist : History) : Eff → Prop
  | .kafka cmd => ∃ p actor row s,
      (⟨.db (.createProvider p actor), .ok row⟩ : Event Eff Eff.Resp) ∈ hist ∧
      SettingsOf env p s ∧ cmd ∈ kafkaCommands s
  | _ => True

/-- Effects other than Kafka commands. -/
def Eff.notKafka : Eff → Prop
  | .kafka _ => False
  | _ => True

theorem Eff.notKafka.recordsFirst {env : Env} {hist : History} {e : Eff} (h : e.notKafka) :
    RecordsFirst env hist e := by
  cases e with
  | kafka cmd => exact h.elim
  | _ => trivial

section

variable {env : Env} {hist : History}

/-- What comes before the set-up does not matter. -/
theorem recordsFirst_bind {α β : Type} {x : Handler α} {f : α → Handler β}
    (hx : Prog.UsesE Eff.notKafka x)
    (hf : ∀ hist a, Prog.IssuesE (RecordsFirst env) hist (f a)) :
    Prog.IssuesE (RecordsFirst env) hist (x >>= f) := by
  have hends : Prog.EndsE (fun _ _ => True) (fun _ (_ : Except HttpError Unit) => True) hist x := by
    refine Prog.Ends.of_forall (fun _ r => ?_) _
    cases r <;> trivial
  exact Prog.IssuesE.bind (Prog.Issues.of_uses (fun _ _ he => he.recordsFirst) hx) hends
    (fun hist a _ => hf hist a)

/-- The steps of the set-up, after the row was stored. -/
theorem setUpKafka_recordsFirst {p : Provider} {actor : Uuid} {row : Provider}
    {s : ProviderKafkaSettings} (hs : SettingsOf env p s)
    (hstored : (⟨.db (.createProvider p actor), .ok row⟩ : Event Eff Eff.Resp) ∈ hist) :
    Prog.IssuesE (RecordsFirst env) hist (setUpKafka s) := by
  have hlaw : ∀ {hist' : History} {cmd : KafkaCmd}, hist ⊆ hist' → cmd ∈ kafkaCommands s →
      RecordsFirst env hist' (.kafka cmd) :=
    fun hsub hcmd => ⟨p, actor, row, s, hsub hstored, hs, hcmd⟩
  refine ⟨hlaw (List.Subset.refl _) (by simp [kafkaCommands]), fun topic => ?_⟩
  cases topic with
  | error e => trivial
  | ok _ =>
      refine ⟨hlaw (List.subset_append_left _ _) (by simp [kafkaCommands]), fun user => ?_⟩
      cases user with
      | error e => trivial
      | ok _ =>
          refine ⟨hlaw ?_ (by simp [kafkaCommands]), fun _ => trivial⟩
          rw [List.append_assoc]
          exact List.subset_append_left _ _

theorem newProvider_settings (env : Env) (payload : CreateProviderRequest)
    (providerId lid passwordId : Uuid) (at_ : Timestamp) :
    SettingsOf env
      (newProvider env payload providerId lid (newKafkaSettings env providerId passwordId) at_)
      (newKafkaSettings env providerId passwordId) :=
  ⟨rfl, passwordId, rfl⟩

theorem createProvider_recordsFirst (payload : CreateProviderRequest) :
    Prog.IssuesE (RecordsFirst env) hist (Api.createProvider env payload) := by
  have hdraw : ∀ {use : IdUse}, Prog.UsesE Eff.notKafka (newV4 use) :=
    ⟨trivial, fun _ => trivial⟩
  refine recordsFirst_bind (now_uses trivial) (fun _ at_ => ?_)
  simp only
  split
  · refine recordsFirst_bind hdraw (fun _ providerId => ?_)
    refine recordsFirst_bind hdraw (fun _ lid => ?_)
    refine recordsFirst_bind hdraw (fun _ actorId => ?_)
    refine recordsFirst_bind (orFail_uses (submit_uses trivial (fun _ => trivial))) (fun _ _ => ?_)
    refine recordsFirst_bind hdraw (fun hist passwordId => ?_)
    -- the row is stored, and then its settings are set up
    refine Prog.IssuesE.bind ⟨trivial, fun r => ?_⟩ (db_ends (fun _ _ => trivial))
      (fun hist' row hevent => ?_)
    · cases r <;> trivial
    · have hsetUp : Prog.IssuesE (RecordsFirst env) hist'
          (setUpKafka (newKafkaSettings env providerId passwordId)) := by
        have hs := newProvider_settings env payload providerId lid passwordId at_
        have hstored : (⟨.db (.createProvider _ actorId), .ok row⟩ : Event Eff Eff.Resp) ∈ hist' := by
          rw [hevent]
          exact List.mem_append_right _ (List.mem_singleton_self _)
        exact setUpKafka_recordsFirst hs hstored
      have hends : Prog.EndsE (fun _ _ => True) (fun _ (_ : Except HttpError Unit) => True) hist'
          (setUpKafka (newKafkaSettings env providerId passwordId)) := by
        refine Prog.Ends.of_forall (fun _ r => ?_) _
        cases r <;> trivial
      exact Prog.IssuesE.bind hsetUp hends (fun _ _ _ => trivial)
  · trivial

/-- Kafka is administered after the provider was recorded, whatever the request. -/
theorem serve_recordsFirst (env : Env) (q : Request) :
    (serve env q).Issues (RecordsFirst env) [] := by
  cases q with
  | createProvider payload =>
      exact Prog.Issues.bind (createProvider_recordsFirst payload) (Prog.Ends.of_forall
        (fun _ _ => trivial) _) (fun _ _ (_ : True) => trivial)
  | _ =>
      refine Prog.Issues.of_uses (fun _ e he => ?_) (serve_allows env _)
      cases e with
      | kafka cmd =>
          obtain ⟨payload, heq⟩ := he
          cases heq
      | _ => trivial

end

/-! ### Over whole runs -/

section

variable {env : Env} {c : State}

/-- A provider whose creation succeeded is in the database. -/
def StoredFact (ev : Event Eff Eff.Resp) (w : World) : Prop :=
  ∀ p actor row, ev = ⟨.db (.createProvider p actor), .ok row⟩ → p.stored ∈ w.pg.providers

theorem exec_storedFact {capacity : Nat} {ch : Choice} {w w' : World} {e : Eff} {r : e.Resp}
    (hx : w.exec capacity ch e = some (r, w')) : StoredFact ⟨e, r⟩ w' := by
  rintro p actor row heq
  obtain ⟨rfl, hr⟩ := Event.mk.inj heq
  obtain rfl := eq_of_heq hr
  obtain ⟨-, happly⟩ := World.dbExec_row hx
  obtain ⟨pg, n, htx, -, rfl⟩ := World.dbApply_cases happly
  rcases createProvider_cases with ⟨-, hadd⟩ | ⟨-, e, hrefused⟩
  · obtain ⟨-, hpg⟩ := Prod.mk.inj (hadd.symm.trans htx)
    obtain ⟨rfl, -⟩ := Prod.mk.inj hpg
    exact List.mem_append_right _ (List.mem_singleton_self p.stored)
  · obtain ⟨hrow, -⟩ := Prod.mk.inj (hrefused.symm.trans htx)
    cases hrow

/-- A task at a Kafka command is at one for a provider in the database. -/
theorem Reachable.tenantCommand (h : Reachable env c) {t : Serving} (ht : t ∈ c.tasks)
    {cmd : KafkaCmd} {k : Except String Unit → Prog Eff Eff.Resp Answer}
    (hrest : t.rest = some (.call (.kafka cmd) k)) : TenantCommand env c.world.pg cmd := by
  obtain ⟨q, hist, rest⟩ := t
  obtain rfl : rest = some (.call (.kafka cmd) k) := hrest
  obtain ⟨now, hreach⟩ := h
  obtain ⟨i, hi⟩ := List.getElem?_of_mem ht
  have hlaw : RecordsFirst env hist (.kafka cmd) :=
    hreach.issues (serve_recordsFirst env) rfl hi
  obtain ⟨p, actor, row, s, hevent, hs, hcmd⟩ := hlaw
  have hfacts : ∀ t ∈ c.tasks, Machine.Remembers (fun _ ev w => StoredFact ev w) t.hist c.world :=
    Reachable.facts (fun _ _ ev w w' hg hfact p actor row hev =>
        hg.pg.providers.subset (hfact p actor row hev))
      (fun _ _ _ _ _ _ _ _ _ _ _ _ _ hx => exec_storedFact hx) hreach
  obtain ⟨past, rest, heq⟩ := List.append_of_mem hevent
  exact ⟨p.stored, hfacts _ ht past _ rest heq p actor row rfl, s, hs.of_stored, hcmd⟩

end

end Wurzburg.System
