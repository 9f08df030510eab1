import ShelterServer.Foundations.CInt

/-!
# Ports from the command line

The ports pass from the command line through `atoi`, the choice of defaults
and the shared record to the two sockets, where sixteen bits of each are left.
The clients are told the port that is bound exactly when each number given is
the mark of a missing port or a port itself.
-/

namespace ShelterServer

open Foundations

/-- `DEFAULT_PORT`. -/
def defaultPort : Int := -1

structure Ports where
  tcpPort : Int
  udpPort : Int
deriving DecidableEq

/-- What a call of `getopt(argc, argv, "p:")` finds: the option with its
argument and the arguments from `optind` on, or an error. -/
inductive Found where
  | option (optarg : Bytes) (behind : List Bytes)
  | error

/-- The results of the successive calls up to -1 or the first error.  Other
arguments are passed over, or end the options if `POSIXLY_CORRECT` is set. -/
def getopt (posixlyCorrect : Bool) : List Bytes → List Found
  | [] => []
  | argument :: rest =>
      match argument with
      | [45, 45] => []
      | [45, 112] =>
          match rest with
          | [] => [.error]
          | optarg :: behind =>
              .option optarg behind :: getopt posixlyCorrect behind
      | 45 :: 112 :: optarg => .option optarg rest :: getopt posixlyCorrect rest
      | 45 :: _ :: _ => [.error]
      | _ => if posixlyCorrect then [] else getopt posixlyCorrect rest

/-- The loop of `parse_command_line_arguments`; `none` stands for
`exit(EXIT_FAILURE)`. -/
def parseCommandLineArguments : List Found → Ports → Option Ports
  | [], ports => some ports
  | .error :: _, _ => none
  | .option optarg behind :: found, ports =>
      if optarg = ascii "tcp" then
        match behind with
        | [] => none
        | argument :: _ =>
            parseCommandLineArguments found
              { ports with tcpPort := atoi argument }
      else if optarg = ascii "udp" then
        match behind with
        | [] => none
        | argument :: _ =>
            parseCommandLineArguments found
              { ports with udpPort := atoi argument }
      else none

/-- A port that the operating system picks. -/
structure PortNumber where
  value : Int
  pos : 1 ≤ value
  le : value ≤ 65535

/-- The defaults of `main`; `first` and `second` are the results of
`get_available_port`. -/
def choosePorts (first second : PortNumber) (ports : Ports) : Ports :=
  if ports.tcpPort = defaultPort ∧ ports.udpPort ≠ defaultPort then
    { ports with tcpPort := first.value }
  else if ports.tcpPort ≠ defaultPort ∧ ports.udpPort = defaultPort then
    { ports with udpPort := first.value }
  else if ports.tcpPort = defaultPort ∧ ports.udpPort = defaultPort then
    ⟨first.value, second.value⟩
  else ports

/-- The port that a socket has after `bind` with `htons((uint16_t)port)`;
`fresh` is what the operating system picks for zero. -/
def bindPort (port : Int) (fresh : PortNumber) : Int :=
  let sin6Port := port % 65536
  if sin6Port = 0 then fresh.value else sin6Port

/-- The ports written by `share_ports_shared_memory` and those the sockets are
bound to. -/
structure Started where
  shared : Ports
  bound : Ports
deriving DecidableEq

/-- What the operating system picks during start-up. -/
structure PickedPorts where
  first : PortNumber
  second : PortNumber
  tcpFresh : PortNumber
  udpFresh : PortNumber

/-- Start-up with the arguments behind the program's name. -/
def startUp (posixlyCorrect : Bool) (picked : PickedPorts)
    (arguments : List Bytes) : Option Started :=
  (parseCommandLineArguments (getopt posixlyCorrect arguments)
    ⟨defaultPort, defaultPort⟩).map fun ports =>
      let ports := choosePorts picked.first picked.second ports
      ⟨ports, ⟨bindPort ports.tcpPort picked.tcpFresh,
        bindPort ports.udpPort picked.udpFresh⟩⟩

def IsPort (value : Int) : Prop :=
  1 ≤ value ∧ value ≤ 65535

instance (value : Int) : Decidable (IsPort value) :=
  inferInstanceAs (Decidable (_ ∧ _))

/-- The clients are told the ports that are bound. -/
structure Started.Agrees (started : Started) : Prop where
  tcp : started.shared.tcpPort = started.bound.tcpPort
  udp : started.shared.udpPort = started.bound.udpPort
  tcpPort : IsPort started.shared.tcpPort
  udpPort : IsPort started.shared.udpPort

/-! ## The numbers that are given -/

/-- The arguments behind the options that name a transport. -/
def portArguments (transport : Bytes) (found : List Found) : List Bytes :=
  found.filterMap fun result =>
    match result with
    | .option optarg (argument :: _) =>
        if optarg = transport then some argument else none
    | _ => none

/-- A port after the options: what the last argument for it says. -/
def lastPort (transport : Bytes) (found : List Found) (port : Int) : Int :=
  match (portArguments transport found).getLast? with
  | none => port
  | some argument => atoi argument

theorem lastPort_cons_of_ne {transport : Bytes} {result : Found}
    {found : List Found} (other : portArguments transport [result] = [])
    (port : Int) :
    lastPort transport (result :: found) port = lastPort transport found port := by
  have same : portArguments transport (result :: found) =
      portArguments transport found := by
    rw [← List.singleton_append, portArguments, List.filterMap_append]
    exact congrArg (· ++ _) other
  rw [lastPort, same, lastPort]

theorem lastPort_cons_of_eq {transport argument : Bytes} {result : Found}
    {found : List Found}
    (names : portArguments transport [result] = [argument]) (port : Int) :
    lastPort transport (result :: found) port =
      lastPort transport found (atoi argument) := by
  have same : portArguments transport (result :: found) =
      argument :: portArguments transport found := by
    rw [← List.singleton_append, portArguments, List.filterMap_append]
    exact congrArg (· ++ _) names
  rw [lastPort, same, lastPort]
  cases portArguments transport found with
  | nil => rfl
  | cons head rest => rw [List.getLast?_cons_cons]; rfl

/-- The ports of an accepted command line are those it gives last. -/
theorem parseCommandLineArguments_eq_some {found : List Found}
    {ports parsed : Ports}
    (accepted : parseCommandLineArguments found ports = some parsed) :
    parsed.tcpPort = lastPort (ascii "tcp") found ports.tcpPort ∧
      parsed.udpPort = lastPort (ascii "udp") found ports.udpPort := by
  have unlike : ascii "udp" ≠ ascii "tcp" := by decide
  induction found generalizing ports with
  | nil =>
      obtain rfl := Option.some.inj accepted
      exact ⟨rfl, rfl⟩
  | cons result found induction =>
      cases result with
      | error => cases accepted
      | option optarg behind =>
          unfold parseCommandLineArguments at accepted
          by_cases tcp : optarg = ascii "tcp"
          · subst tcp
            rw [if_pos rfl] at accepted
            cases behind with
            | nil => cases accepted
            | cons argument behind =>
                obtain ⟨tcpPort, udpPort⟩ := induction accepted
                rw [lastPort_cons_of_eq rfl, lastPort_cons_of_ne rfl]
                exact ⟨tcpPort, udpPort⟩
          · by_cases udp : optarg = ascii "udp"
            · subst udp
              rw [if_neg unlike, if_pos rfl] at accepted
              cases behind with
              | nil => cases accepted
              | cons argument behind =>
                  obtain ⟨tcpPort, udpPort⟩ := induction accepted
                  rw [lastPort_cons_of_ne rfl, lastPort_cons_of_eq rfl]
                  exact ⟨tcpPort, udpPort⟩
            · rw [if_neg tcp, if_neg udp] at accepted
              cases accepted

/-! ## From the numbers to the sockets -/

/-- A socket is bound to the number it was given exactly if that is a port. -/
theorem bindPort_eq_iff {port : Int} (fresh : PortNumber) :
    (port = bindPort port fresh ∧ IsPort port) ↔ IsPort port := by
  refine and_iff_right_of_imp fun isPort => ?_
  obtain ⟨pos, le⟩ := isPort
  have same : port % 65536 = port := by omega
  have nonzero : port ≠ 0 := by omega
  simp [bindPort, same, nonzero]

theorem PortNumber.isPort (port : PortNumber) : IsPort port.value :=
  ⟨port.pos, port.le⟩

theorem isPort_tcpPort_choosePorts (first second : PortNumber) (ports : Ports) :
    IsPort (choosePorts first second ports).tcpPort ↔
      ports.tcpPort = defaultPort ∨ IsPort ports.tcpPort := by
  by_cases missing : ports.tcpPort = defaultPort
  · by_cases other : ports.udpPort = defaultPort
    · simp [choosePorts, missing, other, first.isPort]
    · simp [choosePorts, missing, other, first.isPort]
  · by_cases other : ports.udpPort = defaultPort
    · simp [choosePorts, missing, other]
    · simp [choosePorts, missing, other]

theorem isPort_udpPort_choosePorts (first second : PortNumber) (ports : Ports) :
    IsPort (choosePorts first second ports).udpPort ↔
      ports.udpPort = defaultPort ∨ IsPort ports.udpPort := by
  by_cases missing : ports.udpPort = defaultPort
  · by_cases other : ports.tcpPort = defaultPort
    · simp [choosePorts, missing, other, second.isPort]
    · simp [choosePorts, missing, other, first.isPort]
  · by_cases other : ports.tcpPort = defaultPort
    · simp [choosePorts, missing, other]
    · simp [choosePorts, missing, other]

/-- A port that is missing or a port. -/
theorem isPort_lastPort_iff (transport : Bytes) (found : List Found) :
    (lastPort transport found defaultPort = defaultPort ∨
        IsPort (lastPort transport found defaultPort)) ↔
      ∀ argument ∈ (portArguments transport found).getLast?,
        atoi argument = defaultPort ∨ IsPort (atoi argument) := by
  unfold lastPort
  cases (portArguments transport found).getLast? with
  | none => simp
  | some argument => simp

/-- After start-up the clients are told the ports that are bound if and only if
the last number given for each transport, if any, is -1 or a port. -/
theorem startUp_agrees_iff {posixlyCorrect : Bool} {picked : PickedPorts}
    {arguments : List Bytes} {started : Started}
    (accepted : startUp posixlyCorrect picked arguments = some started) :
    started.Agrees ↔
      ∀ transport ∈ [ascii "tcp", ascii "udp"], ∀ argument ∈
          (portArguments transport
            (getopt posixlyCorrect arguments)).getLast?,
        atoi argument = defaultPort ∨ IsPort (atoi argument) := by
  obtain ⟨ports, parsed, rfl⟩ := Option.map_eq_some_iff.mp accepted
  obtain ⟨tcpPort, udpPort⟩ := parseCommandLineArguments_eq_some parsed
  simp only [List.forall_mem_cons, List.not_mem_nil, false_imp_iff,
    implies_true, and_true, ← isPort_lastPort_iff, ← tcpPort, ← udpPort,
    ← isPort_tcpPort_choosePorts picked.first picked.second,
    ← isPort_udpPort_choosePorts picked.first picked.second]
  constructor
  · intro agrees
    exact ⟨agrees.tcpPort, agrees.udpPort⟩
  · rintro ⟨tcp, udp⟩
    exact ⟨((bindPort_eq_iff _).mpr tcp).1, ((bindPort_eq_iff _).mpr udp).1,
      tcp, udp⟩

/-- Four ports of the operating system. -/
def examplePorts : PickedPorts where
  first := ⟨40000, by decide, by decide⟩
  second := ⟨40001, by decide, by decide⟩
  tcpFresh := ⟨40002, by decide, by decide⟩
  udpFresh := ⟨40003, by decide, by decide⟩

theorem startUp_agrees_of_tcp_8080 :
    (⟨⟨8080, 40000⟩, ⟨8080, 40000⟩⟩ : Started).Agrees ↔
      ∀ transport ∈ [ascii "tcp", ascii "udp"], ∀ argument ∈
          (portArguments transport (getopt false
            [ascii "-p", ascii "tcp", ascii "8080"])).getLast?,
        atoi argument = defaultPort ∨ IsPort (atoi argument) := by
  have accepted : startUp false examplePorts
      [ascii "-p", ascii "tcp", ascii "8080"] =
        some ⟨⟨8080, 40000⟩, ⟨8080, 40000⟩⟩ := by decide +kernel
  exact startUp_agrees_iff accepted

/-- With `-p tcp 0` the clients are told port zero. -/
theorem not_startUp_agrees :
    ¬ ∀ (posixlyCorrect : Bool) (picked : PickedPorts)
      (arguments : List Bytes) (started : Started),
      startUp posixlyCorrect picked arguments = some started →
      started.Agrees := by
  intro agrees
  have told := (agrees false examplePorts
    [ascii "-p", ascii "tcp", ascii "0"]
    ⟨⟨0, 40000⟩, ⟨40002, 40000⟩⟩ (by decide +kernel)).tcp
  revert told
  decide

end ShelterServer
