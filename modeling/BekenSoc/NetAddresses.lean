import Mathlib.Data.List.Basic

/-!
The addresses of the station and of the soft AP (`lwip port/net.c`).

Both interfaces are brought up by `net_configure_address`, which also sets the DNS servers
of the stack from the settings of the interface.
-/

namespace BekenSoc.NetAddresses

def addrTypeStatic : Nat := 1

def addrTypeDhcp : Nat := 0

structure Ipv4Config where
  addrType : Nat
  address : Nat
  gw : Nat
  netmask : Nat
  dns1 : Nat
  dns2 : Nat
  deriving DecidableEq

inductive StatusCallback
  | wmNetifStatusStaticCallback
  | wmNetifStatusCallback
  deriving DecidableEq

structure Interface where
  up : Bool
  statusCallback : Option StatusCallback
  ipaddr : Nat
  nmask : Nat
  gw : Nat
  dhcpStarted : Bool
  deriving DecidableEq

inductive NetIf
  | mlan
  | uap
  deriving DecidableEq

structure Net where
  staIpSettings : Ipv4Config
  uapIpSettings : Ipv4Config
  staIpStartFlag : Bool
  uapIpStartFlag : Bool
  mlan : Interface
  uap : Interface
  upIface : Nat
  dhcpServer : Bool
  dnsServers : Nat × Nat
  deriving DecidableEq

def Interface.init : Interface := ⟨false, none, 0, 0, 0, false⟩

def Net.start (sta uap : Ipv4Config) (dnsServers : Nat × Nat) : Net :=
  ⟨sta, uap, false, false, .init, .init, 0, false, dnsServers⟩

def staIpSettings : Ipv4Config := ⟨addrTypeDhcp, 0, 0, 0, 0, 0⟩

def uapIpSettings : Ipv4Config :=
  ⟨addrTypeStatic, 0xc0a80001, 0xc0a80001, 0xffffff00, 0xc0a80001, 0⟩

def fillDns (fastDns : Option Nat) (addr : Ipv4Config) : Ipv4Config :=
  let addr := if addr.dns1 = 0 then { addr with dns1 := fastDns.getD addr.gw } else addr
  if addr.dns2 = 0 then { addr with dns2 := addr.dns1 } else addr

variable (fastDns : Option Nat)

def netConfigureDns (addr : Ipv4Config) (servers : Nat × Nat) : Ipv4Config × (Nat × Nat) :=
  if addr.addrType = addrTypeStatic then
    (fillDns fastDns addr, ((fillDns fastDns addr).dns1, (fillDns fastDns addr).dns2))
  else (addr, servers)

def netConfigureAddress (addr : Ipv4Config) (netIf : NetIf) (handle : Interface)
    (servers : Nat × Nat) : Ipv4Config × Interface × (Nat × Nat) :=
  if addr.addrType = addrTypeStatic then
    let r := netConfigureDns fastDns addr servers
    let callback := if netIf = .mlan then some StatusCallback.wmNetifStatusStaticCallback else none
    (r.1, ⟨true, callback, addr.address, addr.netmask, addr.gw, handle.dhcpStarted⟩, r.2)
  else if addr.addrType = addrTypeDhcp then
    (addr, ⟨true, some .wmNetifStatusCallback, 0, 0, 0, true⟩, servers)
  else (addr, { handle with up := false, statusCallback := none }, servers)

def staIpStart (s : Net) : Net :=
  if s.staIpStartFlag then s
  else
    let r := netConfigureAddress fastDns s.staIpSettings .mlan s.mlan s.dnsServers
    { s with staIpStartFlag := true, staIpSettings := r.1, mlan := r.2.1, dnsServers := r.2.2,
             upIface := 1 }

def staIpDown (s : Net) : Net :=
  if s.staIpStartFlag then
    { s with staIpStartFlag := false,
             mlan := { s.mlan with up := false, statusCallback := none, dhcpStarted := false } }
  else s

def uapIpStart (s : Net) : Net :=
  if s.uapIpStartFlag then s
  else
    let r := netConfigureAddress fastDns s.uapIpSettings .uap s.uap s.dnsServers
    { s with uapIpStartFlag := true, uapIpSettings := r.1, uap := r.2.1, dnsServers := r.2.2,
             dhcpServer := true, upIface := 0 }

def uapIpDown (s : Net) : Net :=
  if s.uapIpStartFlag then
    { s with uapIpStartFlag := false, dhcpServer := false,
             uap := { s.uap with up := false, statusCallback := none } }
  else s

def ipAddressSet (iface dhcp : Nat) (ip mask gw dns : Nat) (s : Net) : Net :=
  let addr : Ipv4Config :=
    if dhcp = 1 then ⟨addrTypeDhcp, 0, 0, 0, 0, 0⟩
    else ⟨addrTypeStatic, ip, gw, if mask = 0xFFFFFFFF then 0x00FFFFFF else mask, dns, 0⟩
  if iface = 1 then { s with staIpSettings := addr } else { s with uapIpSettings := addr }

inductive NetEvent
  | staIpStart
  | staIpDown
  | uapIpStart
  | uapIpDown
  | ipAddressSet (iface dhcp ip mask gw dns : Nat)
  /-- the DHCP client of the stack gets servers with its lease -/
  | dhcpLease (servers : Nat × Nat)

def netStep (s : Net) : NetEvent → Net
  | .staIpStart => staIpStart fastDns s
  | .staIpDown => staIpDown s
  | .uapIpStart => uapIpStart fastDns s
  | .uapIpDown => uapIpDown s
  | .ipAddressSet iface dhcp ip mask gw dns => ipAddressSet iface dhcp ip mask gw dns s
  | .dhcpLease servers => { s with dnsServers := servers }

def netRun (s : Net) (events : List NetEvent) : Net := events.foldl (netStep fastDns) s

/-- The soft AP has static settings, and is brought up with other servers than those in
use. -/
def apConfiguresDns (s : Net) : Prop :=
  s.uapIpStartFlag = false ∧ s.uapIpSettings.addrType = addrTypeStatic ∧
    ((fillDns fastDns s.uapIpSettings).dns1, (fillDns fastDns s.uapIpSettings).dns2) ≠ s.dnsServers

theorem uapIpStart_dnsServers_iff (s : Net) :
    (uapIpStart fastDns s).dnsServers = s.dnsServers ↔ ¬ apConfiguresDns fastDns s := by
  rw [uapIpStart, apConfiguresDns]
  cases hflag : s.uapIpStartFlag with
  | true => simp
  | false =>
    by_cases hstatic : s.uapIpSettings.addrType = addrTypeStatic
    · simp [netConfigureAddress, netConfigureDns, hstatic]
    · have hkeep : (netConfigureAddress fastDns s.uapIpSettings .uap s.uap s.dnsServers).2.2 =
          s.dnsServers := by
        rw [netConfigureAddress, if_neg hstatic]
        split <;> rfl
      simp [hkeep, hstatic]

/-- After any calls, with any settings, bringing up the soft AP keeps the DNS servers exactly
when it does not configure others. -/
theorem netRun_uapIpStart_dnsServers_iff (sta uap : Ipv4Config) (servers : Nat × Nat)
    (events : List NetEvent) :
    let s := netRun fastDns (Net.start sta uap servers) events
    (netStep fastDns s .uapIpStart).dnsServers = s.dnsServers ↔ ¬ apConfiguresDns fastDns s :=
  uapIpStart_dnsServers_iff fastDns _

-- The station is up with a static address and its own DNS server; the soft AP with its default
-- settings makes itself the DNS server.
theorem uapIpStart_replaces_dns :
    ¬ ∀ (sta uap : Ipv4Config) (servers : Nat × Nat) (events : List NetEvent),
      let s := netRun none (Net.start sta uap servers) events
      (netStep none s .uapIpStart).dnsServers = s.dnsServers := by
  intro hall
  have hkept := hall staIpSettings uapIpSettings (0, 0)
    [.ipAddressSet 1 0 0x0a00000a 0xffffff00 0x0a000001 0x08080808, .staIpStart]
  revert hkept
  decide

end BekenSoc.NetAddresses
