import ShelterServer.Foundations.IpNotation

/-!
# The command line of the clients

Both clients read their options in the order in which `getopt` delivers them.
What the loop has stored so far is a fact about the options read so far: the
last address, whether a double colon occurs in it, and the last version if no
address came before.  The clients then keep the rules of the command line for
exactly the option lists described at the end.
-/

namespace ShelterServer

open Foundations

/-- The options of the clients with the argument of each. -/
inductive ClientOption where
  | port (optarg : Bytes)
  | address (optarg : Bytes)
  | version (optarg : Bytes)
deriving DecidableEq

/-- The variables of the option loop; `ipAddress` is `none` while the pointer
is `NULL`. -/
structure ClientArguments where
  port : Int
  ipv6 : Int
  ipAddress : Option Bytes
  addressFlag : Bool
deriving DecidableEq

/-- The variables before the first option. -/
def ClientArguments.initial : ClientArguments where
  port := -1
  ipv6 := 0
  ipAddress := none
  addressFlag := false

/-- One turn of the loop of `parse_command_line_args`; the result is `none`
where the client exits, and so is an option that `getopt` reports as an
error. -/
def readOption (arguments : ClientArguments) :
    Option ClientOption → Option ClientArguments
  | some (.port optarg) => some { arguments with port := atoi optarg }
  | some (.address optarg) =>
      some { arguments with
        ipv6 := if occursIn (ascii "::") optarg then 1 else 0
        ipAddress := some optarg
        addressFlag := true }
  | some (.version optarg) =>
      if arguments.addressFlag then none
      else if optarg = ascii "v4" then some { arguments with ipv6 := 0 }
      else if optarg = ascii "v6" then some { arguments with ipv6 := 1 }
      else none
  | none => none

/-- `parse_command_line_args` on the successive results of `getopt`. -/
def parseCommandLineArgs (found : List (Option ClientOption)) :
    Option ClientArguments :=
  found.foldlM readOption ClientArguments.initial

/-- `SERVER_IP_V4_LOOP`. -/
def serverIpV4Loop : Bytes := ascii "127.0.0.1"

/-- `SERVER_IP_V6_LOOP`. -/
def serverIpV6Loop : Bytes := ascii "::1"

inductive Client where
  | tcp
  | udp
deriving DecidableEq

/-- The address and the family with which a client sets up its connection:
`main` of the TCP client fills in a missing address, `set_server_addr` of the
UDP client takes what it finds. -/
def Client.usedAddress (client : Client) (arguments : ClientArguments) :
    Option Bytes :=
  match client with
  | .tcp =>
      match arguments.ipAddress with
      | none =>
          some (if arguments.ipv6 = 1 then serverIpV6Loop else serverIpV4Loop)
      | some address => some address
  | .udp => arguments.ipAddress

/-- What the start-up of a client leaves to `establish_connection`. -/
structure ClientStart where
  ipv6 : Int
  address : Option Bytes
deriving DecidableEq

def Client.startUp (client : Client) (found : List (Option ClientOption)) :
    Option ClientStart :=
  (parseCommandLineArgs found).map fun arguments =>
    ⟨arguments.ipv6, client.usedAddress arguments⟩

/-! ## The rules of the command line -/

/-- The arguments of the `-a` options. -/
def addressValues (options : List ClientOption) : List Bytes :=
  options.filterMap fun option =>
    match option with
    | .address optarg => some optarg
    | _ => none

/-- The arguments of the `-t` options. -/
def versionValues (options : List ClientOption) : List Bytes :=
  options.filterMap fun option =>
    match option with
    | .version optarg => some optarg
    | _ => none

/-- `v4` and `v6`. -/
def IsVersion (value : Bytes) : Prop :=
  value = ascii "v4" ∨ value = ascii "v6"

instance (value : Bytes) : Decidable (IsVersion value) :=
  inferInstanceAs (Decidable (_ ∨ _))

/-- The options are not allowed together, or a version is none. -/
def Improper (options : List ClientOption) : Prop :=
  (addressValues options ≠ [] ∧ versionValues options ≠ []) ∨
    ∃ value ∈ versionValues options, ¬ IsVersion value

/-- The loopback address of the version that is selected last. -/
def selectedLoopback (options : List ClientOption) : Bytes :=
  if (versionValues options).getLast? = some (ascii "v6") then serverIpV6Loop
  else serverIpV4Loop

/-- A start with some address, the loopback address if none was given, and
with the flag of its family. -/
structure ClientStart.Suits (start : ClientStart)
    (options : List ClientOption) : Prop where
  given : ∃ address, start.address = some address
  loopback : addressValues options = [] →
    start.address = some (selectedLoopback options)
  family : ∀ address, start.address = some address →
    IsIpv4 address ∨ IsIpv6 address → (start.ipv6 = 1 ↔ IsIpv6 address)

/-- A client rejects the improper option lists and suits the others. -/
structure Client.KeepsRules (client : Client) (options : List ClientOption) :
    Prop where
  rejects : Improper options → client.startUp (options.map some) = none
  accepts : ¬ Improper options → ∃ start,
    client.startUp (options.map some) = some start ∧ start.Suits options

/-! ## The options read so far -/

/-- A version that is none or stands behind an address. -/
def Refused (options : List ClientOption) : Prop :=
  ∃ front value back, options = front ++ .version value :: back ∧
    (addressValues front ≠ [] ∨ ¬ IsVersion value)

/-- What the variables hold after some options. -/
structure ClientArguments.Holds (arguments : ClientArguments)
    (options : List ClientOption) : Prop where
  ipAddress : arguments.ipAddress = (addressValues options).getLast?
  addressFlag : arguments.addressFlag = true ↔ addressValues options ≠ []
  selected : addressValues options = [] → arguments.ipv6 =
    if (versionValues options).getLast? = some (ascii "v6") then 1 else 0
  inferred : ∀ address ∈ (addressValues options).getLast?,
    arguments.ipv6 = 1 ↔ [58, 58] <:+: address

theorem addressValues_append (front back : List ClientOption) :
    addressValues (front ++ back) =
      addressValues front ++ addressValues back :=
  List.filterMap_append

theorem versionValues_append (front back : List ClientOption) :
    versionValues (front ++ back) =
      versionValues front ++ versionValues back :=
  List.filterMap_append

theorem parseCommandLineArgs_concat (options : List ClientOption)
    (option : ClientOption) :
    parseCommandLineArgs ((options ++ [option]).map some) =
      (parseCommandLineArgs (options.map some)).bind fun arguments =>
        readOption arguments (some option) := by
  simp [parseCommandLineArgs]

theorem not_refused_nil : ¬ Refused [] := by
  rintro ⟨front, value, back, whole, -⟩
  simp at whole

/-- A further option is refused with the options before it or by itself. -/
theorem refused_concat_iff (options : List ClientOption)
    (option : ClientOption) :
    Refused (options ++ [option]) ↔ Refused options ∨
      ∃ value, option = .version value ∧
        (addressValues options ≠ [] ∨ ¬ IsVersion value) := by
  constructor
  · rintro ⟨front, value, back, whole, wrong⟩
    cases back using List.reverseRecOn with
    | nil =>
        obtain ⟨rfl, last⟩ := List.append_inj' whole rfl
        exact Or.inr ⟨value, List.singleton_inj.mp last, wrong⟩
    | append_singleton back last =>
        rw [← List.cons_append, ← List.append_assoc] at whole
        obtain ⟨rfl, -⟩ := List.append_inj' whole rfl
        exact Or.inl ⟨front, value, back, rfl, wrong⟩
  · rintro (⟨front, value, back, rfl, wrong⟩ | ⟨value, rfl, wrong⟩)
    · exact ⟨front, value, back ++ [option], by simp, wrong⟩
    · exact ⟨options, value, [], rfl, wrong⟩

theorem ClientArguments.holds_initial : ClientArguments.initial.Holds [] where
  ipAddress := rfl
  addressFlag := by simp [initial, addressValues]
  selected := fun _ => rfl
  inferred := by simp [addressValues]

/-- An option that is read keeps the variables in step with the options. -/
theorem ClientArguments.Holds.read {arguments : ClientArguments}
    {options : List ClientOption} (holds : arguments.Holds options)
    {option : ClientOption}
    (proper : ∀ value, option = .version value →
      addressValues options = [] ∧ IsVersion value) :
    ∃ next, readOption arguments (some option) = some next ∧
      next.Holds (options ++ [option]) := by
  cases option with
  | port optarg =>
      have addresses : addressValues [.port optarg] = [] := rfl
      have versions : versionValues [.port optarg] = [] := rfl
      refine ⟨_, rfl, ?_⟩
      constructor <;>
        rw [addressValues_append, addresses, List.append_nil]
      · exact holds.ipAddress
      · exact holds.addressFlag
      · rw [versionValues_append, versions, List.append_nil]
        exact holds.selected
      · exact holds.inferred
  | address optarg =>
      have addresses : addressValues [.address optarg] = [optarg] := rfl
      refine ⟨_, rfl, ?_⟩
      constructor <;> rw [addressValues_append, addresses]
      · simp
      · simp
      · simp
      · have doubleColon : ascii "::" = [58, 58] := by decide
        simp [occursIn, doubleColon]
  | version optarg =>
      obtain ⟨noAddress, isVersion⟩ := proper optarg rfl
      have flag : arguments.addressFlag = false := by
        rw [← Bool.not_eq_true, holds.addressFlag]
        exact not_not_intro noAddress
      have read : readOption arguments (some (.version optarg)) =
          some { arguments with
            ipv6 := if optarg = ascii "v6" then 1 else 0 } := by
        obtain rfl | rfl := isVersion
        · have other : ascii "v4" ≠ ascii "v6" := by decide
          simp [readOption, flag, other]
        · have other : ascii "v6" ≠ ascii "v4" := by decide
          simp [readOption, flag, other]
      have addresses : addressValues [.version optarg] = [] := rfl
      have versions : versionValues [.version optarg] = [optarg] := rfl
      refine ⟨_, read, ?_⟩
      constructor <;>
        rw [addressValues_append, addresses, List.append_nil]
      · exact holds.ipAddress
      · exact holds.addressFlag
      · simp [versionValues_append, versions]
      · simp [noAddress]

/-- The loop stops at the first refused option, and otherwise has stored what
the options say. -/
theorem parseCommandLineArgs_cases (options : List ClientOption) :
    (Refused options ∧ parseCommandLineArgs (options.map some) = none) ∨
      (¬ Refused options ∧ ∃ arguments,
        parseCommandLineArgs (options.map some) = some arguments ∧
          arguments.Holds options) := by
  induction options using List.reverseRecOn with
  | nil => exact Or.inr ⟨not_refused_nil, _, rfl, ClientArguments.holds_initial⟩
  | append_singleton options option induction =>
      rw [parseCommandLineArgs_concat, refused_concat_iff]
      obtain ⟨refused, stopped⟩ | ⟨accepted, arguments, parsed, holds⟩ := induction
      · exact Or.inl ⟨Or.inl refused, by simp [stopped]⟩
      · rw [parsed, Option.bind_some]
        by_cases wrong : ∃ value, option = .version value ∧
            (addressValues options ≠ [] ∨ ¬ IsVersion value)
        · refine Or.inl ⟨Or.inr wrong, ?_⟩
          obtain ⟨value, rfl, late | other⟩ := wrong
          · simp [readOption, holds.addressFlag.mpr late]
          · rw [IsVersion, not_or] at other
            simp [readOption, other.1, other.2]
        · have proper : ∀ value, option = .version value →
              addressValues options = [] ∧ IsVersion value := by
            intro value same
            have right : ¬ (addressValues options ≠ [] ∨ ¬ IsVersion value) :=
              fun bad => wrong ⟨value, same, bad⟩
            rwa [not_or, not_ne_iff, not_not] at right
          exact Or.inr ⟨not_or.mpr ⟨accepted, wrong⟩, holds.read proper⟩

/-! ## Rejected option lists -/

theorem Refused.improper {options : List ClientOption}
    (refused : Refused options) : Improper options := by
  obtain ⟨front, value, back, rfl, wrong⟩ := refused
  have member : value ∈ versionValues (front ++ .version value :: back) := by
    rw [versionValues_append]
    simp [versionValues]
  obtain late | other := wrong
  · refine Or.inl ⟨?_, List.ne_nil_of_mem member⟩
    rw [addressValues_append]
    exact List.append_ne_nil_of_left_ne_nil late _
  · exact Or.inr ⟨value, member, other⟩

theorem refused_of_not_isVersion {options : List ClientOption} {value : Bytes}
    (member : value ∈ versionValues options) (other : ¬ IsVersion value) :
    Refused options := by
  obtain ⟨option, optionMember, selects⟩ := List.mem_filterMap.mp member
  cases option with
  | version optarg =>
      obtain rfl := Option.some.inj selects
      obtain ⟨front, back, whole⟩ := List.append_of_mem optionMember
      exact ⟨front, optarg, back, whole, Or.inr other⟩
  | port => cases selects
  | address => cases selects

theorem Client.startUp_eq_none_iff (client : Client)
    (options : List ClientOption) :
    client.startUp (options.map some) = none ↔ Refused options := by
  rw [startUp, Option.map_eq_none_iff]
  obtain ⟨refused, stopped⟩ | ⟨accepted, arguments, parsed, -⟩ :=
    parseCommandLineArgs_cases options
  · exact iff_of_true stopped refused
  · exact iff_of_false (by simp [parsed]) accepted

/-- When a client keeps the rules: a version next to an address is refused by
the loop, the last address is not an IPv6 address with all its groups, and a
UDP client is given an address. -/
structure Client.Foreseen (client : Client) (options : List ClientOption) :
    Prop where
  ordered : addressValues options ≠ [] → versionValues options ≠ [] →
    Refused options
  shortened : versionValues options = [] →
    ∀ address ∈ (addressValues options).getLast?, ¬ IsFullIpv6 address
  given : addressValues options = [] →
    (∀ value ∈ versionValues options, IsVersion value) → client = .tcp

theorem isIpv4_serverIpV4Loop : IsIpv4 serverIpV4Loop := by
  have octet : ∀ octet ∈ [ascii "127", ascii "0", ascii "1"], IsOctet octet := by
    intro octet member
    simp only [List.mem_cons, List.not_mem_nil, or_false] at member
    obtain rfl | rfl | rfl := member <;>
      exact ⟨by decide, List.all_eq_true.mp (by decide), by decide, by decide⟩
  exact ⟨ascii "127", ascii "0", ascii "0", ascii "1", octet _ (by decide),
    octet _ (by decide), octet _ (by decide), octet _ (by decide), by decide⟩

theorem isIpv6_serverIpV6Loop : IsIpv6 serverIpV6Loop := by
  have group : IsGroup (ascii "1") :=
    ⟨by decide, by decide, List.all_eq_true.mp (by decide)⟩
  exact Or.inr (@IsCompressedIpv6.intro [] _ _ _ (by simp)
    (IsGroups.cons group IsGroups.nil) (by decide) (Or.inl rfl))

/-! ## Accepted option lists -/

/-- Without an address the TCP client uses the loopback address of the last
version. -/
theorem ClientArguments.Holds.usedAddress_tcp {arguments : ClientArguments}
    {options : List ClientOption} (holds : arguments.Holds options)
    (noAddress : addressValues options = []) :
    Client.tcp.usedAddress arguments = some (selectedLoopback options) ∧
      (arguments.ipv6 = 1 ↔ IsIpv6 (selectedLoopback options)) := by
  have missing : arguments.ipAddress = none := by
    rw [holds.ipAddress, noAddress, List.getLast?_nil]
  have version := holds.selected noAddress
  simp only [Client.usedAddress, missing, selectedLoopback]
  by_cases six : (versionValues options).getLast? = some (ascii "v6")
  · rw [if_pos six] at version
    rw [version, if_pos six, if_pos rfl]
    exact ⟨rfl, iff_of_true rfl isIpv6_serverIpV6Loop⟩
  · rw [if_neg six] at version
    rw [version, if_neg six, if_neg (by decide)]
    exact ⟨rfl, iff_of_false (by decide) isIpv4_serverIpV4Loop.not_ipv6⟩

theorem ClientArguments.Holds.suits_iff_of_noAddress
    {arguments : ClientArguments} {options : List ClientOption}
    (holds : arguments.Holds options) (noAddress : addressValues options = [])
    (client : Client) :
    (⟨arguments.ipv6, client.usedAddress arguments⟩ : ClientStart).Suits
        options ↔ client = .tcp := by
  cases client with
  | udp =>
      refine iff_of_false (fun suits => ?_) (by simp)
      obtain ⟨address, given⟩ := suits.given
      have missing : arguments.ipAddress = some address := given
      rw [holds.ipAddress, noAddress] at missing
      cases missing
  | tcp =>
      obtain ⟨used, family⟩ := holds.usedAddress_tcp noAddress
      refine iff_of_true ⟨⟨_, used⟩, fun _ => used, ?_⟩ rfl
      intro address same _
      obtain rfl := Option.some.inj (used.symm.trans same)
      exact family

theorem ClientArguments.Holds.suits_iff_of_address
    {arguments : ClientArguments} {options : List ClientOption}
    (holds : arguments.Holds options) {address : Bytes}
    (last : (addressValues options).getLast? = some address)
    (client : Client) :
    (⟨arguments.ipv6, client.usedAddress arguments⟩ : ClientStart).Suits
        options ↔ ¬ IsFullIpv6 address := by
  have stored : arguments.ipAddress = some address :=
    holds.ipAddress.trans last
  have used : client.usedAddress arguments = some address := by
    cases client with
    | tcp => simp [Client.usedAddress, stored]
    | udp => exact stored
  have flag := holds.inferred address last
  constructor
  · intro suits full
    have six := (suits.family address used (Or.inr (Or.inl full))).mpr
      (Or.inl full)
    exact full.not_doubleColon (flag.mp six)
  · intro shortened
    refine ⟨⟨address, used⟩, fun none => ?_, fun other same valid => ?_⟩
    · rw [none] at last
      cases last
    · obtain rfl := Option.some.inj (used.symm.trans same)
      exact flag.trans ((doubleColon_iff_ipv6 valid).mpr shortened)

/-- What the loop has stored suits the options exactly if the last address is
written in a way that shows its family and a UDP client has been given one. -/
theorem ClientArguments.Holds.suits_iff {arguments : ClientArguments}
    {options : List ClientOption} (holds : arguments.Holds options)
    (client : Client) :
    (⟨arguments.ipv6, client.usedAddress arguments⟩ : ClientStart).Suits
        options ↔
      (∀ address ∈ (addressValues options).getLast?, ¬ IsFullIpv6 address) ∧
        (addressValues options = [] → client = .tcp) := by
  by_cases noAddress : addressValues options = []
  · rw [holds.suits_iff_of_noAddress noAddress]
    simp [noAddress]
  · have last := List.getLast?_eq_some_getLast noAddress
    rw [holds.suits_iff_of_address last]
    simp [last, noAddress]

/-- A client keeps the rules of the command line exactly on the option lists
that it foresees. -/
theorem Client.keepsRules_iff (client : Client) (options : List ClientOption) :
    client.KeepsRules options ↔ client.Foreseen options := by
  obtain ⟨refused, stopped⟩ | ⟨accepted, arguments, parsed, holds⟩ :=
    parseCommandLineArgs_cases options
  · have rejected := (client.startUp_eq_none_iff options).mpr refused
    refine iff_of_true ⟨fun _ => rejected, fun proper => ?_⟩ ⟨?_, ?_, ?_⟩
    · exact (proper refused.improper).elim
    · exact fun _ _ => refused
    · intro noVersion
      obtain ⟨front, value, back, rfl, -⟩ := refused
      simp [versionValues] at noVersion
    · intro noAddress allVersions
      obtain both | ⟨value, member, other⟩ := refused.improper
      · exact (both.1 noAddress).elim
      · exact (other (allVersions value member)).elim
  · have started : client.startUp (options.map some) =
        some ⟨arguments.ipv6, client.usedAddress arguments⟩ := by
      simp [startUp, parsed]
    have allVersions : ∀ value ∈ versionValues options, IsVersion value := by
      intro value member
      by_contra other
      exact accepted (refused_of_not_isVersion member other)
    constructor
    · intro keeps
      have proper : ¬ Improper options := by
        intro improper
        have stopped := keeps.rejects improper
        rw [started] at stopped
        cases stopped
      obtain ⟨start, same, suits⟩ := keeps.accepts proper
      obtain rfl := Option.some.inj (started.symm.trans same)
      obtain ⟨shortened, given⟩ := (holds.suits_iff client).mp suits
      refine ⟨fun address version => ?_, fun _ => shortened,
        fun noAddress _ => given noAddress⟩
      exact (proper (Or.inl ⟨address, version⟩)).elim
    · intro foreseen
      have proper : ¬ Improper options := by
        rintro (⟨address, version⟩ | ⟨value, member, other⟩)
        · exact accepted (foreseen.ordered address version)
        · exact other (allVersions value member)
      refine ⟨fun improper => (proper improper).elim, fun _ =>
        ⟨_, started, (holds.suits_iff client).mpr ⟨?_, ?_⟩⟩⟩
      · by_cases noVersion : versionValues options = []
        · exact foreseen.shortened noVersion
        · have noAddress : addressValues options = [] := by
            by_contra address
            exact accepted (foreseen.ordered address noVersion)
          simp [noAddress]
      · exact fun noAddress => foreseen.given noAddress allVersions

/-- `-a 2001:db8:0:0:0:0:0:1` selects IPv4. -/
theorem not_forall_keepsRules :
    ¬ ∀ (client : Client) (options : List ClientOption),
      client.KeepsRules options := by
  intro keeps
  have group : ∀ group ∈ [ascii "2001", ascii "db8", ascii "0", ascii "1"],
      IsGroup group := by
    intro group member
    simp only [List.mem_cons, List.not_mem_nil, or_false] at member
    obtain rfl | rfl | rfl | rfl := member <;>
      exact ⟨by decide, by decide, List.all_eq_true.mp (by decide)⟩
  have zero := group (ascii "0") (by decide)
  have groups : IsGroups [ascii "2001", ascii "db8", ascii "0", ascii "0",
      ascii "0", ascii "0", ascii "0", ascii "1"] 8 :=
    .cons (group _ (by decide)) <| .cons (group _ (by decide)) <| .cons zero <|
      .cons zero <| .cons zero <| .cons zero <| .cons zero <|
      .cons (group _ (by decide)) .nil
  have full : IsFullIpv6 (ascii "2001:db8:0:0:0:0:0:1") :=
    IsFullIpv6.intro groups (Or.inl rfl)
  obtain ⟨start, same, suits⟩ :=
    (keeps .tcp [.address (ascii "2001:db8:0:0:0:0:0:1")]).accepts (by
      simp [Improper, versionValues])
  have started : Client.startUp .tcp
      [some (.address (ascii "2001:db8:0:0:0:0:0:1"))] =
        some ⟨0, some (ascii "2001:db8:0:0:0:0:0:1")⟩ := by decide
  obtain rfl := Option.some.inj (started.symm.trans same)
  exact absurd ((suits.family _ rfl (Or.inr (Or.inl full))).mpr (Or.inl full))
    (by decide)

end ShelterServer
