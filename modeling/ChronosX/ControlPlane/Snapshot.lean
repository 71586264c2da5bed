import ChronosX.ControlPlane.RuleList
import ChronosX.Library.Publication

/-!
# Snapshots of the rules

The control thread handles requests one after another: it updates the table, and after a change
it copies the rules and stores the copy as the new snapshot. The data plane loads the snapshot at
any time. `publication` is that thread step by step; undisturbed, its steps make up the calls of
`handle_request` (`exists_run_handleRequests`).
-/

namespace ChronosX

namespace ControlPlaneCore

/-- The steps of `handle_request`, as far as a concurrent `current_rules` can see them. -/
def publication :
    Publication (ControlCore kDefaultMaxRules) Exchange ControlResponse (List ChaosRule) where
  update control exchange :=
    let handled := control.handle exchange.request exchange.response
    (handled.core, handled.result)
  publishes exchange result := publishes exchange.request result
  view := ControlCore.rules

/-- `handle_request` is its steps with no load in between. -/
lemma afterRequest_eq_perform (c : ControlPlaneCore) (exchange : Exchange) :
    c.afterRequest exchange.request exchange.response =
      ⟨(publication.perform c.control c.ruleSnapshot exchange).1,
        (publication.perform c.control c.ruleSnapshot exchange).2.1⟩ := by
  simp only [afterRequest, handleRequest, Publication.perform, publication]
  split_ifs with hpublishes <;> simp [hpublishes, publishRules]

/-- The control thread carries a request out in at most three steps, as `handle_request` does. -/
lemma exists_run_afterRequest (c : ControlPlaneCore) (exchange : Exchange)
    (pending : List Exchange) (loaded : List (List ChaosRule)) :
    ∃ n ≤ 3, publication.run ⟨c.control, c.ruleSnapshot, exchange :: pending, .idle, loaded⟩
        (List.replicate n .writer) =
      let c' := c.afterRequest exchange.request exchange.response
      ⟨c'.control, c'.ruleSnapshot, pending, .idle, loaded⟩ := by
  rw [afterRequest_eq_perform]
  exact publication.exists_run_perform c.control c.ruleSnapshot exchange pending loaded

/-- Undisturbed, the control thread handles all the requests as `handle_request` does. -/
lemma exists_run_handleRequests (c : ControlPlaneCore) (exchanges : List Exchange)
    (loaded : List (List ChaosRule)) :
    ∃ n ≤ 3 * exchanges.length,
      publication.run ⟨c.control, c.ruleSnapshot, exchanges, .idle, loaded⟩
          (List.replicate n .writer) =
        let c' := c.handleRequests exchanges
        ⟨c'.control, c'.ruleSnapshot, [], .idle, loaded⟩ := by
  induction exchanges generalizing c with
  | nil => exact ⟨0, Nat.le_refl _, rfl⟩
  | cons exchange exchanges ih =>
    obtain ⟨n, hn, hfirst⟩ := c.exists_run_afterRequest exchange exchanges loaded
    obtain ⟨n', hn', hrest⟩ := ih (c.afterRequest exchange.request exchange.response)
    refine ⟨n + n', by rw [List.length_cons]; omega, ?_⟩
    rw [← List.replicate_append_replicate, Publication.run_append, hfirst]
    exact hrest

/-- The list of rules after a request and its response. -/
def exchangeStep (rules : List ChaosRule) (exchange : Exchange) : List ChaosRule :=
  ruleListStep kDefaultMaxRules rules exchange.request

/-- The control thread refines the rule list, as long as the replies to changes fit. -/
lemma publication_refines :
    publication.Refines exchangeStep fun exchange =>
      kProtocolHeaderBytes ≤ exchange.response.length where
  view_update control exchange _ := control.handle_rules exchange.request exchange.response
  unchanged control exchange hroom hpublishes := by
    let c : ControlPlaneCore := ⟨control, []⟩
    apply ruleListStep_eq_self
    intro hpossible
    have hpublished := (c.publishes_iff exchange.request exchange.response).mpr ⟨hpossible, hroom⟩
    exact absurd (hpublished.symm.trans hpublishes) (by decide)

lemma handleRequests_append (c : ControlPlaneCore) (exchanges : List Exchange)
    (exchange : Exchange) :
    c.handleRequests (exchanges ++ [exchange]) =
      (c.handleRequests exchanges).afterRequest exchange.request exchange.response :=
  List.foldl_append

/-- The rules after a sequence of requests. -/
lemma handleRequests_rules (c : ControlPlaneCore) (exchanges : List Exchange) :
    (c.handleRequests exchanges).rules = exchanges.foldl exchangeStep c.rules := by
  induction exchanges using List.reverseRecOn with
  | nil => rfl
  | append_singleton exchanges exchange ih =>
    rw [handleRequests_append, afterRequest_rules, ih, List.foldl_append]
    rfl

/-- Requests with room for their replies keep to the runs in which the snapshot holds the rules. -/
lemma reachable_handleRequests {exchanges : List Exchange}
    (h : ∀ exchange ∈ exchanges, kProtocolHeaderBytes ≤ exchange.response.length) :
    Reachable ReplyFits (fresh.handleRequests exchanges) := by
  induction exchanges using List.reverseRecOn with
  | nil => exact .fresh
  | append_singleton exchanges exchange ih =>
    rw [handleRequests_append]
    refine .request _ _ (ih fun e he => h e (List.mem_append_left _ he)) (Or.inl ?_)
    exact h exchange (by simp)

/-- The control plane is the rule list, and its snapshot is coherent: after any requests the rules
are those of the list and the snapshot holds them; each further request is settled as the list
says; and with loads at any point inside the requests, a load returns the list after the requests
that are finished by then. The steps between which the loads come are those of `handle_request`:
taken one after another they handle the requests as it does. -/
theorem requests_refine_rule_list (exchanges : List Exchange)
    (hroom : ∀ exchange ∈ exchanges, 24 + 40 * 128 ≤ exchange.response.length) :
    let after := fun n => (exchanges.take n).foldl exchangeStep []
    let c := fresh.handleRequests exchanges
    c.rules = after exchanges.length ∧ c.currentRules = c.rules ∧
      (∀ request response : List Byte, 24 + 40 * 128 ≤ response.length →
        c.Settled request response) ∧
      (∀ schedule : List Publication.Turn,
        let s := publication.run (publication.start fresh.control exchanges) schedule
        (s.phase = .idle → s.published = s.current.rules) ∧
          (publication.turn s .reader).loaded = s.loaded ++ [after (s.finished exchanges)] ∧
          ∃ ks : List ℕ, ks.Pairwise (· ≤ ·) ∧ (∀ k ∈ ks, k ≤ s.finished exchanges) ∧
            s.loaded = ks.map after) ∧
      ∃ n ≤ 3 * exchanges.length,
        publication.run (publication.start fresh.control exchanges) (List.replicate n .writer) =
          ⟨c.control, c.ruleSnapshot, [], .idle, []⟩ := by
  have hheader : ∀ exchange ∈ exchanges, kProtocolHeaderBytes ≤ exchange.response.length := by
    intro exchange hexchange
    exact le_trans (by decide) (hroom exchange hexchange)
  refine ⟨?_, (reachable_handleRequests hheader).coherent, ?_, ?_,
    exists_run_handleRequests fresh exchanges []⟩
  · simp only [List.take_length]
    exact handleRequests_rules fresh exchanges
  · intro request response hresponse
    exact settled _ (le_trans (by decide) hresponse) request
  · intro schedule
    refine ⟨?_, ?_, ?_⟩
    · exact Publication.published_of_idle publication_refines hheader _ schedule
    · simp only [Publication.turn]
      rw [Publication.published_eq publication_refines hheader]
      rfl
    · exact Publication.exists_loaded publication_refines hheader _ schedule

/-- One rule is added, and then a request arrives that is no message; before the thread's first
step the snapshot is that of an empty table. -/
theorem requests_refine_rule_list_oneRule :
    (fresh.handleRequests [⟨addZeroRule, List.replicate 5144 0⟩]).currentRules =
        (fresh.handleRequests [⟨addZeroRule, List.replicate 5144 0⟩]).rules ∧
      (fresh.handleRequests [⟨addZeroRule, List.replicate 5144 0⟩]).Settled []
        (List.replicate 5144 0) ∧
      (publication.start fresh.control [⟨addZeroRule, List.replicate 5144 0⟩]).published =
        fresh.control.rules := by
  have hlength : 24 + 40 * 128 ≤ (List.replicate 5144 (0 : Byte)).length := by
    rw [List.length_replicate]
  obtain ⟨-, hcoherent, hsettled, hschedule, -⟩ :=
    requests_refine_rule_list [⟨addZeroRule, List.replicate 5144 0⟩] (by
      intro exchange hexchange
      rw [List.mem_singleton.mp hexchange]
      exact hlength)
  exact ⟨hcoherent, hsettled [] _ hlength, (hschedule []).1 rfl⟩

end ControlPlaneCore

end ChronosX
