/-
  Maranode.Isolation.Netns

  `netns.rs`: network namespaces of workspaces.

  `ip netns add` refuses a name that is taken and `ip netns del` one that is not; either may
  fail for a reason of its own, which is an argument, and then it changes nothing.
-/
import Mathlib.Logic.Function.Basic

namespace Maranode.Isolation

def NS_PREFIX : String := "maranode-ws-"

def nsName (slug : String) : String := NS_PREFIX ++ slug

/-- The names under `/var/run/netns`. -/
abbrev Namespaces := String → Bool

namespace Netns

/-- `create`; `fails` is what is wrong with running `ip netns add`, if anything is. -/
def create (fails : Option String) (ns : Namespaces) (slug : String) :
    Namespaces × Except String Unit :=
  let name := nsName slug
  match fails with
  | some e => (ns, .error e)
  | none =>
      if ns name then (ns, .error s!"ip netns add {name} failed (status exit status: 1)")
      else (Function.update ns name true, .ok ())

def delete (fails : Option String) (ns : Namespaces) (slug : String) :
    Namespaces × Except String Unit :=
  let name := nsName slug
  match fails with
  | some e => (ns, .error e)
  | none =>
      if ns name then (Function.update ns name false, .ok ())
      else (ns, .error s!"ip netns del {name} failed (status exit status: 1)")

/-- `exists`. -/
def present (ns : Namespaces) (slug : String) : Bool := ns (nsName slug)

variable {fails : Option String} {ns : Namespaces} {slug slug' : String}

theorem nsName_inj (h : nsName slug = nsName slug') : slug = slug' :=
  String.toList_inj.mp (List.append_cancel_left
    ((String.toList_append.symm.trans (congrArg String.toList h)).trans String.toList_append))

theorem present_update_self (b : Bool) :
    present (Function.update ns (nsName slug) b) slug = b := Function.update_self ..

theorem present_update_of_ne (h : slug' ≠ slug) (b : Bool) :
    present (Function.update ns (nsName slug) b) slug' = present ns slug' :=
  Function.update_of_ne (fun heq => h (nsName_inj heq)) ..

/-- A namespace is added where there was none. -/
theorem create_of_free (hfails : fails = none) (hfree : present ns slug = false) :
    create fails ns slug = (Function.update ns (nsName slug) true, .ok ()) := by
  rw [present] at hfree
  rw [hfails, create, if_neg (Bool.eq_false_iff.mp hfree)]

theorem create_of_not_free (h : ¬ (fails = none ∧ present ns slug = false)) :
    ∃ e, create fails ns slug = (ns, .error e) := by
  cases fails with
  | some e => exact ⟨e, rfl⟩
  | none =>
      rw [create]
      cases hpresent : ns (nsName slug) with
      | true => exact ⟨_, if_pos rfl⟩
      | false => exact absurd ⟨rfl, hpresent⟩ h

/-- A namespace that is there goes, unless the command fails. -/
theorem delete_of_present (h : present ns slug = true) :
    delete fails ns slug =
      match fails with
      | some e => (ns, .error e)
      | none => (Function.update ns (nsName slug) false, .ok ()) := by
  rw [present] at h
  cases fails with
  | some e => rfl
  | none => exact if_pos h

end Netns

end Maranode.Isolation
