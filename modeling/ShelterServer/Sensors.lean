import ShelterServer.Alerts

/-!
# The temperature sensors

The child process of the alerts draws two random numbers for each sensor, the
first for the branch and the second for the reading, and sends an alert for
every reading above the threshold.  Temperatures are tenths of a degree.
-/

namespace ShelterServer

open Foundations

/-- `RAND_MAX`. -/
def randMax : Nat := 2147483647

/-- `THRESHOLD_TEMP`. -/
def thresholdTemp : Nat := 380

structure Sensor where
  name : Bytes
  temperature : Nat
deriving DecidableEq

/-- The random value, as a part of `RAND_MAX`, is below the probability of a
high temperature. -/
def takesHighBranch (random : Nat) : Bool :=
  random * 100000000000 < randMax

/-- `get_temperature` after some calls of `rand`; it makes two more. -/
def getTemperature (rand : Nat → Nat) (calls : Nat) : Nat :=
  if takesHighBranch (rand calls) then rand (calls + 1) % 51 + 380
  else rand (calls + 1) % 40 + 350

/-- The loop of `update_sensor_values`. -/
def updateSensorValues (rand : Nat → Nat) : Nat → List Sensor → List Sensor
  | _, [] => []
  | calls, sensor :: sensors =>
      { sensor with temperature := getTemperature rand calls } ::
        updateSensorValues rand (calls + 2) sensors

/-- A call of `send_alert`. -/
structure SensorAlert where
  temperature : Nat
  sensorName : Bytes
deriving DecidableEq

/-- The calls in the loop of `check_temperature_threshold`. -/
def checkTemperatureThreshold : List Sensor → List SensorAlert
  | [] => []
  | sensor :: sensors =>
      if thresholdTemp < sensor.temperature then
        ⟨sensor.temperature, sensor.name⟩ ::
          checkTemperatureThreshold sensors
      else checkTemperatureThreshold sensors

/-! ## Readings -/

section Readings

variable (rand : Nat → Nat)

/-- Either branch stays in a range of its own. -/
theorem getTemperature_bounds (calls : Nat) :
    350 ≤ getTemperature rand calls ∧
      getTemperature rand calls ≤ 430 := by
  unfold getTemperature
  split
  · have below := Nat.mod_lt (rand (calls + 1)) (show 0 < 51 by decide)
    omega
  · have below := Nat.mod_lt (rand (calls + 1)) (show 0 < 40 by decide)
    omega

/-- A reading of the normal branch is above the threshold for nine results of
the second draw. -/
theorem threshold_lt_getTemperature_iff {calls : Nat}
    (normal : takesHighBranch (rand calls) = false) :
    thresholdTemp < getTemperature rand calls ↔
      30 < rand (calls + 1) % 40 := by
  simp only [getTemperature, normal, Bool.false_eq_true, if_false,
    thresholdTemp]
  omega

theorem getElem?_updateSensorValues (calls index : Nat)
    (sensors : List Sensor) :
    (updateSensorValues rand calls sensors)[index]? =
      sensors[index]?.map fun sensor =>
        { sensor with
          temperature := getTemperature rand (calls + 2 * index) } := by
  induction sensors generalizing calls index with
  | nil => rfl
  | cons sensor sensors induction =>
      cases index with
      | zero => rfl
      | succ index =>
          rw [updateSensorValues, List.getElem?_cons_succ, induction,
            List.getElem?_cons_succ, Nat.mul_succ, Nat.add_assoc,
            Nat.add_comm 2]

theorem length_updateSensorValues (calls : Nat) (sensors : List Sensor) :
    (updateSensorValues rand calls sensors).length = sensors.length := by
  induction sensors generalizing calls with
  | nil => rfl
  | cons sensor sensors induction =>
      exact congrArg (· + 1) (induction _)

end Readings

/-! ## Alerts -/

def Sensor.alert (sensor : Sensor) : SensorAlert :=
  ⟨sensor.temperature, sensor.name⟩

/-- Alerts are sent in the order of the sensors, one for each that is above the
threshold. -/
theorem checkTemperatureThreshold_eq (sensors : List Sensor) :
    checkTemperatureThreshold sensors =
      (sensors.filter fun sensor =>
        thresholdTemp < sensor.temperature).map Sensor.alert := by
  induction sensors with
  | nil => rfl
  | cons sensor sensors induction =>
      rw [checkTemperatureThreshold]
      by_cases above : thresholdTemp < sensor.temperature
      · rw [if_pos above, List.filter_cons_of_pos (by simpa using above),
          induction]
        rfl
      · rw [if_neg above, List.filter_cons_of_neg (by simpa using above),
          induction]

/-- The sensors, each with its position, whose reading came from the high
branch and is above the threshold. -/
def abnormalSensors (rand : Nat → Nat) (sensors : List Sensor) :
    List (Sensor × Nat) :=
  (updateSensorValues rand 0 sensors).zipIdx.filter fun item =>
    takesHighBranch (rand (2 * item.2)) &&
      decide (thresholdTemp < item.1.temperature)

/-- Alerts are raised for exactly the abnormal readings. -/
structure AlertsAbnormal (rand : Nat → Nat) (sensors : List Sensor) :
    Prop where
  sent : checkTemperatureThreshold (updateSensorValues rand 0 sensors) =
    (abnormalSensors rand sensors).map fun item => item.1.alert
  silent : ∀ index sensor,
    (updateSensorValues rand 0 sensors)[index]? = some sensor →
    takesHighBranch (rand (2 * index)) = false →
    ¬ thresholdTemp < sensor.temperature

/-- Only abnormal readings raise alerts if no normal reading does. -/
theorem checkTemperatureThreshold_of_silent {rand : Nat → Nat}
    {sensors : List Sensor}
    (silent : ∀ index sensor,
      (updateSensorValues rand 0 sensors)[index]? = some sensor →
      takesHighBranch (rand (2 * index)) = false →
      ¬ thresholdTemp < sensor.temperature) :
    checkTemperatureThreshold (updateSensorValues rand 0 sensors) =
      (abnormalSensors rand sensors).map fun item => item.1.alert := by
  have same : ∀ item ∈ (updateSensorValues rand 0 sensors).zipIdx,
      decide (thresholdTemp < item.1.temperature) =
        (takesHighBranch (rand (2 * item.2)) &&
          decide (thresholdTemp < item.1.temperature)) := by
    rintro ⟨sensor, index⟩ member
    have stored := List.mem_zipIdx_iff_getElem?.mp member
    cases branch : takesHighBranch (rand (2 * index)) with
    | true => rfl
    | false => simpa using silent index sensor stored branch
  calc
    checkTemperatureThreshold (updateSensorValues rand 0 sensors)
    _ = (((updateSensorValues rand 0 sensors).zipIdx.map Prod.fst).filter
          fun sensor => thresholdTemp < sensor.temperature).map
            Sensor.alert := by
        rw [checkTemperatureThreshold_eq, List.zipIdx_map_fst]
    _ = ((updateSensorValues rand 0 sensors).zipIdx.filter
          fun item => thresholdTemp < item.1.temperature).map
            fun item => item.1.alert := by
        rw [List.filter_map, List.map_map]
        rfl
    _ = (abnormalSensors rand sensors).map fun item => item.1.alert := by
        rw [abnormalSensors, List.filter_congr same]

/-- Alerts are raised for exactly the abnormal readings if and only if no
sensor whose first draw selects the normal branch has one of the nine highest
results in its second draw. -/
theorem alertsAbnormal_iff (rand : Nat → Nat) (sensors : List Sensor) :
    AlertsAbnormal rand sensors ↔
      ∀ index < sensors.length,
        takesHighBranch (rand (2 * index)) = false →
        rand (2 * index + 1) % 40 ≤ 30 := by
  constructor
  · intro abnormal index below normal
    have stored := getElem?_updateSensorValues rand 0 index sensors
    rw [List.getElem?_eq_getElem below, Option.map_some, Nat.zero_add] at stored
    have quiet := abnormal.silent index _ stored normal
    rwa [threshold_lt_getTemperature_iff rand normal, not_lt] at quiet
  · intro draws
    have silent : ∀ index sensor,
        (updateSensorValues rand 0 sensors)[index]? = some sensor →
        takesHighBranch (rand (2 * index)) = false →
        ¬ thresholdTemp < sensor.temperature := by
      intro index sensor stored normal
      have below := (List.getElem?_eq_some_iff.mp stored).1
      rw [length_updateSensorValues] at below
      rw [getElem?_updateSensorValues, List.getElem?_eq_getElem below,
        Option.map_some, Nat.zero_add] at stored
      obtain rfl := Option.some.inj stored
      rw [threshold_lt_getTemperature_iff rand normal, not_lt]
      exact draws index below normal
    exact ⟨checkTemperatureThreshold_of_silent silent, silent⟩

/-- A normal reading of 38.9 raises an alert. -/
theorem not_forall_alertsAbnormal :
    ¬ ∀ (rand : Nat → Nat) (sensors : List Sensor),
      AlertsAbnormal rand sensors := by
  intro abnormal
  have sent := (abnormal (fun _ => 39)
    [⟨sensorName .north, 0⟩]).sent
  revert sent
  decide

/-! ## Messages -/

/-- `%.1f` for a temperature of some tenths. -/
def printTenths (temperature : Nat) : Bytes :=
  ascii (toString (temperature / 10)) ++
    [46, UInt8.ofNat (temperature % 10 + 48)]

/-- The text that `send_alert` makes. -/
def SensorAlert.message (alert : SensorAlert) : Bytes :=
  alert.sensorName ++ ascii ", ALERT, " ++ printTenths alert.temperature ++
    [0xC2, 0xB0] ++ ascii "C "

theorem printTenths_plain {temperature : Nat} (above : 350 ≤ temperature)
    (below : temperature ≤ 430) :
    (∀ byte ∈ printTenths temperature, byte ≠ 0 ∧ ¬ (65 ≤ byte ∧ byte ≤ 90)) ∧
      (printTenths temperature).length ≤ 42 := by
  have all : ∀ temperature ≤ 430, 350 ≤ temperature →
      (∀ byte ∈ printTenths temperature,
        byte ≠ 0 ∧ ¬ (65 ≤ byte ∧ byte ≤ 90)) ∧
        (printTenths temperature).length ≤ 42 := by
    decide +kernel
  exact all temperature below above

/-- What the sensors of the entries send is a message that the server's side of
the FIFO expects. -/
theorem message_eq_alertMessage {rand : Nat → Nat} {sensors : List Sensor}
    (named : ∀ sensor ∈ sensors, ∃ entry, sensor.name = sensorName entry) :
    ∀ alert ∈ checkTemperatureThreshold (updateSensorValues rand 0 sensors),
      ∃ expected : Alert, alert.message = alertMessage expected := by
  intro alert member
  rw [checkTemperatureThreshold_eq] at member
  obtain ⟨sensor, sensorMember, rfl⟩ := List.mem_map.mp member
  obtain ⟨index, stored⟩ :=
    List.mem_iff_getElem?.mp (List.mem_filter.mp sensorMember).1
  rw [getElem?_updateSensorValues] at stored
  obtain ⟨old, oldStored, rfl⟩ := Option.map_eq_some_iff.mp stored
  obtain ⟨entry, name⟩ := named old (List.mem_of_getElem? oldStored)
  obtain ⟨above, below⟩ := getTemperature_bounds rand (0 + 2 * index)
  obtain ⟨plain, short⟩ := printTenths_plain above below
  refine ⟨⟨entry, ⟨_, plain, short⟩⟩, ?_⟩
  simp only [SensorAlert.message, Sensor.alert, alertMessage, name]

end ShelterServer
