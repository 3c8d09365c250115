import Kubebpfbox.Endpoint2Pod.Equiv.Providers
import Kubebpfbox.Lib.LastWrite

/-!
## Which notification an entry comes from

An entry of `Providers` is a cell (`LastWrite`): a notification writes it when its new object lists
the endpoint, clears it when only its old object does, and leaves it alone otherwise
(`lookup_handle`).  So whatever notifications are handled, in step with the store or not, the entry
is that of the last one that lists the endpoint in either object.
-/

namespace Kubebpfbox.Endpoint2Pod

open Golang GoM Kubebpfbox.Core Informer LastWrite

variable {σ : Type} {nodeName : GoString} {endpoint : Endpoint} {provider : Provider}

/-- What a notification does to the entry of an endpoint. -/
def writesTo (nodeName : GoString) (endpoint : Endpoint) :
    Event Endpoints → Option (Option Provider)
  | .add newObj =>
    if Lists nodeName newObj endpoint then some ((computed nodeName newObj).lookup endpoint)
    else none
  | .update oldObj newObj =>
    if Lists nodeName newObj endpoint then some ((computed nodeName newObj).lookup endpoint)
    else if Lists nodeName oldObj endpoint then some none
    else none
  | .delete oldObj => if Lists nodeName oldObj endpoint then some none else none

theorem writesTo_of_begins {e : Event Endpoints} {o : Endpoints} (ho : e.Begins o)
    (hl : Lists nodeName o endpoint) :
    writesTo nodeName endpoint e = some ((computed nodeName o).lookup endpoint) := by
  cases e with
  | add o' =>
    cases ho
    exact if_pos hl
  | update _ o' =>
    cases ho
    exact if_pos hl
  | delete _ => cases ho

theorem writesTo_of_ends {e : Event Endpoints}
    (hb : ¬ ∃ o, e.Begins o ∧ Lists nodeName o endpoint)
    (he : ∃ o, e.Ends o ∧ Lists nodeName o endpoint) :
    writesTo nodeName endpoint e = some none := by
  obtain ⟨o, ho, hl⟩ := he
  cases e with
  | add _ => cases ho
  | update _ o' =>
    cases ho
    rw [writesTo, if_neg fun h => hb ⟨o', rfl, h⟩, if_pos hl]
  | delete _ =>
    cases ho
    exact if_pos hl

theorem writesTo_eq_none_iff {e : Event Endpoints} : writesTo nodeName endpoint e = none ↔
    ∀ o, e.Begins o ∨ e.Ends o → ¬ Lists nodeName o endpoint := by
  constructor
  · intro h o ho hl
    rcases ho with ho | ho
    · rw [writesTo_of_begins ho hl] at h
      cases h
    · by_cases hb : ∃ o, e.Begins o ∧ Lists nodeName o endpoint
      · obtain ⟨o', ho', hl'⟩ := hb
        rw [writesTo_of_begins ho' hl'] at h
        cases h
      · rw [writesTo_of_ends hb ⟨o, ho, hl⟩] at h
        cases h
  · intro h
    cases e with
    | add o => exact if_neg (h o (Or.inl rfl))
    | update o o' =>
      rw [writesTo, if_neg (h o' (Or.inl rfl)), if_neg (h o (Or.inr rfl))]
    | delete o => exact if_neg (h o (Or.inr rfl))

/-- **One notification and one entry.** -/
theorem lookup_handle {e : Event Endpoints} {w w' : World σ}
    (hg : Gives (handle nodeName e) w ⟨⟩ w') (endpoint : Endpoint) :
    w'.providers.lookup endpoint
      = (writesTo nodeName endpoint e).getD (w.providers.lookup endpoint) := by
  have href := hasTargetRefs_of_begins hg
  rw [(providers_handle hg).2]
  by_cases hb : ∃ o, e.Begins o ∧ Lists nodeName o endpoint
  · obtain ⟨o, ho, hl⟩ := hb
    rw [lookup_effect_of_begins href ho hl, writesTo_of_begins ho hl, Option.getD_some]
  · by_cases he : ∃ o, e.Ends o ∧ Lists nodeName o endpoint
    · rw [writesTo_of_ends hb he, Option.getD_some, Finmap.lookup_eq_none, mem_effect href]
      rintro (hbegins | ⟨-, hkept⟩)
      · exact hb hbegins
      · exact hkept he
    · have hnone : writesTo nodeName endpoint e = none := by
        rw [writesTo_eq_none_iff]
        rintro o (ho | ho) hl
        · exact hb ⟨o, ho, hl⟩
        · exact he ⟨o, ho, hl⟩
      rw [lookup_effect_of_not href hb he, hnone, Option.getD_none]

/-- The entry an object gives an endpoint names one of its local addresses. -/
theorem exists_local_of_computed {o : Endpoints}
    (h : (computed nodeName o).lookup endpoint = some provider) :
    ∃ x ∈ locals nodeName o, ∃ ref, x.1.targetRef = some ref ∧ endpointOf x = endpoint ∧
      provider = providerOf o nodeName ref := by
  unfold computed at h
  split at h
  · rename_i w hw
    rw [(providers_addEndpoints hw).2] at h
    have hempty : (∅ : GoMap Endpoint Provider).lookup endpoint ≠ some provider := by
      rw [Finmap.lookup_empty]
      exact (Option.some_ne_none provider).symm
    have hentry := (GoMap.mem_of_lookup_insertAll h).resolve_right hempty
    obtain ⟨x, hx, hfst⟩ := List.mem_filterMap.mp hentry
    obtain ⟨ref, href, heq⟩ := Option.map_eq_some_iff.mp hfst
    cases heq
    exact ⟨x, hx, ref, href, rfl, rfl⟩
  · rw [Finmap.lookup_empty] at h
    cases h

/-- The entry was written by notification `n`, whose new object names the pod for the endpoint; no
later notification is about the endpoint. -/
structure ListedAt (nodeName : GoString) (events : List (Event Endpoints)) (endpoint : Endpoint)
    (n : ℕ) (o : Endpoints) (x : EndpointAddress × EndpointPort) (ref : ObjectReference) :
    Prop where
  begins : ∃ e, events[n]? = some e ∧ e.Begins o
  is_local : x ∈ locals nodeName o
  endpointOf_eq : endpointOf x = endpoint
  targetRef : x.1.targetRef = some ref
  later : ∀ n' e, n < n' → events[n']? = some e →
    ∀ o', e.Begins o' ∨ e.Ends o' → ¬ Lists nodeName o' endpoint

theorem exists_listedAt {events : List (Event Endpoints)}
    (h : cell (writesTo nodeName endpoint) events = some provider) :
    ∃ n o x ref, ListedAt nodeName events endpoint n o x ref ∧
      provider = providerOf o nodeName ref := by
  obtain ⟨n, hwritten⟩ := cell_eq_some_iff.mp h
  obtain ⟨e, he, hval⟩ := hwritten.write
  -- only an object that begins writes a provider
  obtain ⟨o, ho, hcomp⟩ : ∃ o, e.Begins o ∧
      (computed nodeName o).lookup endpoint = some provider := by
    by_cases hb : ∃ o, e.Begins o ∧ Lists nodeName o endpoint
    · obtain ⟨o, ho, hl⟩ := hb
      rw [writesTo_of_begins ho hl, Option.some.injEq] at hval
      exact ⟨o, ho, hval⟩
    · by_cases hends : ∃ o, e.Ends o ∧ Lists nodeName o endpoint
      · rw [writesTo_of_ends hb hends] at hval
        cases hval
      · have hnone : writesTo nodeName endpoint e = none := by
          rw [writesTo_eq_none_iff]
          rintro o (ho | ho) hl
          · exact hb ⟨o, ho, hl⟩
          · exact hends ⟨o, ho, hl⟩
        rw [hnone] at hval
        cases hval
  obtain ⟨x, hx, ref, href, heq, hprov⟩ := exists_local_of_computed hcomp
  exact ⟨n, o, x, ref, ⟨⟨e, he, ho⟩, hx, heq, href, fun n' e' hn he' =>
    writesTo_eq_none_iff.mp (hwritten.later n' e' hn he')⟩, hprov⟩

theorem mem_computed {o : Endpoints} (href : HasTargetRefs nodeName o)
    (hl : Lists nodeName o endpoint) : endpoint ∈ computed nodeName o := by
  rw [computed_eq href, GoMap.mem_insertAll, keys_entries href, mem_listing]
  exact Or.inr hl

/-- There is an entry exactly when the last notification about the endpoint lists it. -/
theorem isSome_cell_iff {events : List (Event Endpoints)}
    (href : ∀ e ∈ events, ∀ o, e.Begins o → HasTargetRefs nodeName o) :
    (cell (writesTo nodeName endpoint) events).isSome ↔
      ∃ n o x ref, ListedAt nodeName events endpoint n o x ref := by
  rw [Option.isSome_iff_exists]
  constructor
  · rintro ⟨provider, hcell⟩
    obtain ⟨n, o, x, ref, hlisted, -⟩ := exists_listedAt hcell
    exact ⟨n, o, x, ref, hlisted⟩
  · rintro ⟨n, o, x, ref, hlisted⟩
    obtain ⟨e, he, ho⟩ := hlisted.begins
    have hl : Lists nodeName o endpoint := by
      rw [← mem_listing, ← hlisted.endpointOf_eq]
      exact List.mem_map_of_mem hlisted.is_local
    obtain ⟨provider, hprov⟩ :=
      Finmap.mem_iff.mp (mem_computed (href e (List.mem_of_getElem? he) o ho) hl)
    refine ⟨provider, cell_eq_some_iff.mpr ⟨n, ⟨e, he, ?_⟩, fun n' e' hn he' => ?_⟩⟩
    · rw [writesTo_of_begins ho hl, hprov]
    · exact writesTo_eq_none_iff.mpr (hlisted.later n' e' hn he')

end Kubebpfbox.Endpoint2Pod
