import PanelFirmware.Lib.Bytes
import PanelFirmware.Lib.Machine
import PanelFirmware.Window.MenuSystem

/-!
# `window/src/menuSystem.cpp`: viewing a network address

`ipAddressEditor` copies the parameter when it is entered and stores the copy when it returns, also
for an item that cannot be changed. In between the callbacks of the network interface store the
current addresses in the same parameters.

* `Copies`: without a change the copy stays what it was.
* `viewed_iff`: the parameter keeps what the callbacks stored last, exactly when this is the value
  before the session.
-/

namespace PanelFirmware.Window.IpAddressEditor

open PanelFirmware.Lib

/-! ### The code -/

/-- The parameters that hold an address. Source: `prmSystem.h`. -/
inductive Address
  | ipadr
  | netmask
  | gateway
  | dnsServip
  | currIpadr
  | currNetmask
  | currGateway
  deriving DecidableEq

/-- The parameter of an item with this editor. Source: `settingTSK.cpp` `m31`–`m34`,
`m350`–`m353`. -/
def prm : Item → Option Address
  | .m31 => some .ipadr
  | .m32 => some .netmask
  | .m33 => some .gateway
  | .m34 => some .dnsServip
  | .m350 => some .currIpadr
  | .m351 => some .currNetmask
  | .m352 => some .currGateway
  | .m353 => some .dnsServip
  | _ => none

/-- These are the items with this editor. -/
lemma prm_isSome (m : Item) : (prm m).isSome = true ↔ m.get.editor = some .ipAddressEditor := by
  cases m <;> decide

/-- None of them has a callback that `callExit` would call. -/
lemma pUnselect_of_prm (m : Item) : (prm m).isSome = true → m.get.pUnselect = none := by
  cases m <;> decide

/-- An address, of bytes with the low one first.
Source: `menuSystem.cpp` `ipAddressEditor`, `ip`. -/
abbrev Ip := BitVec 32

/-- Source: `menuSystem.cpp` `ipAddressEditor`, `ip.v[i] += step`. -/
def addByte (ip : Ip) (i : ℕ) (step : ℤ) : Ip :=
  BitVec.ofNat 32 (ofBytesLE ((toBytesLE 4 ip.toNat).modify i (· + BitVec.ofInt 8 step)))

/-- Source: `ip_addr.h` `ntohl`. -/
def ntohl (v : Ip) : Ip := BitVec.ofNat 32 (ofBytesLE (toBytesLE 4 v.toNat).reverse)

/-- A callback of the network interface: of its status, with whether it is up and its address, and
of its link. Source: `systemTSK.cpp` `netif_status_callback`, `linkcallback`. -/
inductive NetCallback
  | status (up : Bool) (ipAddr : Ip)
  | link (up : Bool)
  deriving DecidableEq

/-- The parameters a callback stores, one after another.
Source: `systemTSK.cpp` `netif_status_callback`, `linkcallback`. -/
def NetCallback.stores : NetCallback → List Address
  | .status up ipAddr => if up ∧ ipAddr ≠ 0 then [.currIpadr, .currNetmask, .currGateway] else []
  | .link up => if up then [] else [.currIpadr, .currNetmask, .currGateway]

/-- The value a callback stores, where the field of `xnetif` is `v`.
Source: `systemTSK.cpp` `netif_status_callback`, `linkcallback`. -/
def NetCallback.value (v : Ip) : NetCallback → Ip
  | .status _ _ => ntohl v
  | .link _ => 0

/-- A callback and how many of its stores are done. -/
structure Progress where
  callback : NetCallback
  done : ℕ
  deriving DecidableEq

/-- What the editor is doing: it is in its loop, it has left the loop, it has returned.
Source: `menuSystem.cpp` `ipAddressEditor`, `var`, `ip`. -/
inductive Activity
  | editing (var : ℕ) (ip : Ip)
  | leaving (ip : Ip)
  | returned
  deriving DecidableEq

/-- The parameters, the editor and the callbacks in progress. What the callbacks store since the
editor was entered is recorded, the last first. -/
structure State where
  val : Address → Ip
  activity : Activity
  callbacks : List Progress
  stored : List (Address × Ip)

/-- A pass of the editor's loop, with the keys of the scan and the encoder; a callback is called;
one of those in progress makes its next store, where the field of `xnetif` is `v`; the editor stores
its copy and returns. -/
inductive Event
  | pass (keys : Key → Bool) (step : ℤ)
  | call (c : NetCallback)
  | store (i : ℕ) (v : Ip)
  | finish

/-- The selected byte after the keys of a scan. Source: `menuSystem.cpp` `ipAddressEditor`. -/
def moveVar (keys : Key → Bool) (var : ℕ) : ℕ :=
  if keys .kUp then if var < 3 then var + 1 else var
  else if keys .kDown then if var > 0 then var - 1 else var
  else var

/-- A step of a session on the item `m`.
Source: `menuSystem.cpp` `ipAddressEditor`; `systemTSK.cpp` `netif_status_callback`,
`linkcallback`. -/
def step (m : Item) (s : State) : Event → Option State
  | .pass keys encoder =>
      match s.activity with
      | .editing var ip =>
          let var := moveVar keys var
          if keys .kMode then some { s with activity := .leaving ip }
          else
            let ip := if m.get.change then addByte ip (3 - var) encoder else ip
            some { s with activity := .editing var ip }
      | _ => none
  | .call c => some { s with callbacks := s.callbacks ++ [⟨c, 0⟩] }
  | .store i v => do
      let progress ← s.callbacks[i]?
      let address ← progress.callback.stores[progress.done]?
      some { s with
        val := Function.update s.val address (progress.callback.value v)
        callbacks := s.callbacks.set i { progress with done := progress.done + 1 }
        stored := (address, progress.callback.value v) :: s.stored }
  | .finish =>
      match s.activity, prm m with
      | .leaving ip, some address =>
          some { s with val := Function.update s.val address ip, activity := .returned }
      | _, _ => none

/-- The editor is entered, while callbacks may be in progress.
Source: `menuSystem.cpp` `ipAddressEditor`. -/
def enter (address : Address) (val : Address → Ip) (callbacks : List Progress) : State where
  val := val
  activity := .editing 0 (val address)
  callbacks := callbacks
  stored := []

/-- What the callbacks stored last in a parameter, or its value before the session. -/
def State.lastStored (s : State) (address : Address) (before : Ip) : Ip :=
  ((s.stored.find? fun x => decide (x.1 = address)).map Prod.snd).getD before

/-! ### The copy -/

/-- The editor has still got the value it copied. -/
def Copies (copy : Ip) (s : State) : Prop :=
  match s.activity with
  | .editing _ ip => ip = copy
  | .leaving ip => ip = copy
  | .returned => True

/-- **The copy is not touched** where nothing can be changed. -/
theorem copies_step {m : Item} {copy : Ip} {s t : State} {e : Event} (hm : m.get.change = false)
    (h : Copies copy s) (hstep : step m s e = some t) : Copies copy t := by
  cases e with
  | pass keys encoder =>
      simp only [step, hm, Bool.false_eq_true, if_false] at hstep
      split at hstep
      · next var ip hactivity =>
          have hip : ip = copy := by simpa only [Copies, hactivity] using h
          split_ifs at hstep <;> rw [← Option.some.inj hstep] <;> exact hip
      · cases hstep
  | call c =>
      rw [← Option.some.inj hstep]
      exact h
  | store i v =>
      simp only [step, Option.bind_eq_bind, Option.bind_eq_some_iff] at hstep
      obtain ⟨progress, -, address, -, ht⟩ := hstep
      rw [← Option.some.inj ht]
      exact h
  | finish =>
      simp only [step] at hstep
      split at hstep
      · rw [← Option.some.inj hstep]
        trivial
      · cases hstep

/-- What the editor stores when it returns. -/
lemma finish_val {m : Item} {address : Address} {copy : Ip} {s t : State}
    (hm : prm m = some address) (h : Copies copy s) (hstep : step m s .finish = some t) :
    t.val address = copy ∧ t.stored = s.stored := by
  simp only [step] at hstep
  split at hstep
  · next ip address' hactivity hprm =>
      obtain rfl : address = address' := Option.some.inj (hm.symm.trans hprm)
      rw [← Option.some.inj hstep]
      have hip : ip = copy := by simpa only [Copies, hactivity] using h
      exact ⟨(Function.update_self address ip s.val).trans hip, rfl⟩
  · cases hstep

/-! ### The callbacks -/

/-- No callback stores the address of the name server. -/
lemma dnsServip_not_mem_stores (c : NetCallback) : Address.dnsServip ∉ c.stores := by
  cases c with
  | status up ipAddr =>
      simp only [NetCallback.stores]
      split_ifs <;> decide
  | link up =>
      simp only [NetCallback.stores]
      split_ifs <;> decide

/-- The callbacks leave the address of the name server alone. -/
lemma dnsServip_step {m : Item} {s t : State} {e : Event}
    (h : ∀ x ∈ s.stored, x.1 ≠ Address.dnsServip) (hstep : step m s e = some t) :
    ∀ x ∈ t.stored, x.1 ≠ Address.dnsServip := by
  cases e with
  | pass keys encoder =>
      simp only [step] at hstep
      split at hstep
      · split_ifs at hstep <;> rw [← Option.some.inj hstep] <;> exact h
      · cases hstep
  | call c =>
      rw [← Option.some.inj hstep]
      exact h
  | store i v =>
      simp only [step, Option.bind_eq_bind, Option.bind_eq_some_iff] at hstep
      obtain ⟨progress, -, address, haddress, ht⟩ := hstep
      rw [← Option.some.inj ht]
      refine List.forall_mem_cons.mpr ⟨fun heq => ?_, h⟩
      have hmem : address ∈ progress.callback.stores := List.mem_of_getElem? haddress
      rw [show address = Address.dnsServip from heq] at hmem
      exact dnsServip_not_mem_stores progress.callback hmem
  | finish =>
      simp only [step] at hstep
      split at hstep
      · rw [← Option.some.inj hstep]
        exact h
      · cases hstep

/-- What is recorded of the others says nothing about a parameter. -/
lemma lastStored_eq {s : State} {address : Address} (h : ∀ x ∈ s.stored, x.1 ≠ address)
    (before : Ip) : s.lastStored address before = before := by
  have hnone : (s.stored.find? fun x => decide (x.1 = address)) = none :=
    List.find?_eq_none.mpr fun x hx => by simpa using h x hx
  rw [State.lastStored, hnone]
  rfl

/-! ### Main result -/

/-- **Viewing an address does not write it**, exactly when what the callbacks stored last in the
parameter is the value from before the session; the address of the name server, which they do not
store, always is. -/
theorem viewed_iff {m : Item} {address : Address} (hm : prm m = some address)
    (hchange : m.get.change = false) (val : Address → Ip) (callbacks : List Progress)
    {es : List Event} {s t : State}
    (hrun : Machine.run (step m) (enter address val callbacks) es = some s)
    (hstep : step m s .finish = some t) :
    (t.val address = t.lastStored address (val address) ↔
      t.lastStored address (val address) = val address) ∧
    (address = .dnsServip → t.val address = t.lastStored address (val address)) := by
  have henter : Copies (val address) (enter address val callbacks) := rfl
  have hcopies : Copies (val address) s :=
    Machine.run_invariant (fun _ _ _ h => copies_step hchange h) henter hrun
  obtain ⟨hval, hstored⟩ := finish_val hm hcopies hstep
  rw [hval]
  refine ⟨eq_comm, fun haddress => (lastStored_eq (fun x hx => ?_) _).symm⟩
  rw [hstored] at hx
  rw [haddress]
  exact Machine.run_invariant (fun _ _ _ h => dnsServip_step h)
    (fun x hx => absurd hx List.not_mem_nil) hrun x hx

/-- No key but one is pressed. -/
def only (k : Key) : Key → Bool := fun k' => decide (k' = k)

/-- The link is lost and the interface gets its address again. -/
def relink : List Event :=
  [.call (.link false), .store 0 0, .store 0 0, .call (.status true 0x0100000A),
    .store 1 0x0100000A, .pass (only .kMode) 0]

/-- An address is viewed meanwhile: it is lost and is stored again. -/
theorem viewed_iff_relink : ∃ s t,
    Machine.run (step .m350) (enter .currIpadr (fun _ => 0x0A000001) []) relink = some s ∧
      step .m350 s .finish = some t ∧
      t.stored = [(.currIpadr, 0x0A000001), (.currNetmask, 0), (.currIpadr, 0)] ∧
      t.val .currIpadr = t.lastStored .currIpadr 0x0A000001 := by
  have hm : prm .m350 = some .currIpadr := rfl
  have hrun : Machine.run (step .m350) (enter .currIpadr (fun _ => 0x0A000001) []) relink =
      some _ := rfl
  exact ⟨_, _, hrun, rfl, by decide,
    (viewed_iff hm rfl (fun _ => 0x0A000001) [] hrun rfl).1.mpr (by decide)⟩

/-- The interface gets its address while the item is viewed: the address is lost. -/
theorem not_forall_viewed : ¬ ∀ m address, prm m = some address → m.get.change = false →
    ∀ val callbacks es s t, Machine.run (step m) (enter address val callbacks) es = some s →
      step m s .finish = some t → t.val address = t.lastStored address (val address) := by
  intro h
  have hlost := h .m350 .currIpadr rfl rfl (fun _ => 0) []
    [Event.call (.status true 1), Event.store 0 1, Event.pass (only .kMode) 0] _ _ rfl rfl
  exact absurd hlost (by decide)

end PanelFirmware.Window.IpAddressEditor
