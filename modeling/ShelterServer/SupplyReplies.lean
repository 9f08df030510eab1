import ShelterServer.Server
import ShelterServer.SupplyArithmetic

/-!
# Replies as requests

The format of a reply is the format of an update: what `convert_supplies_to_json`
builds, alone or inside a summary, adds the reported supplies when it is sent
back as an update.
-/

namespace ShelterServer

open Foundations Faulting

/-- Objects, nested at will, whose numbers are values of type `int`. -/
inductive Json.IntValued : Json → Prop
  | number {value : Int} (representable : InInt value) :
      IntValued (.number value)
  | object {members : List (Bytes × Json)}
      (values : ∀ member ∈ members, IntValued member.2) :
      IntValued (.object members)

/-- Printing an object of `int` values and parsing the text gives the object
back. -/
def RestoresIntValued (parse : Bytes → Option Json) (print : Json → Bytes)
    (json : Json) : Prop :=
  json.IntValued → parse (print json) = some json

/-- The object that `convert_supplies_to_json` builds. -/
def Supplies.report (supplies : Supplies) : Json :=
  .object [
    (ascii "food", .object [
      (ascii "meat", .number supplies.food.meat),
      (ascii "vegetables", .number supplies.food.vegetables),
      (ascii "fruits", .number supplies.food.fruits),
      (ascii "water", .number supplies.food.water)]),
    (ascii "medicine", .object [
      (ascii "antibiotics", .number supplies.medicine.antibiotics),
      (ascii "analgesics", .number supplies.medicine.analgesics),
      (ascii "bandages", .number supplies.medicine.bandages)])]

theorem convertSuppliesToJson_eq_report {access : SegmentAccess}
    (granted : access.Granted) (supplies : Supplies) :
    convertSuppliesToJson access supplies = some supplies.report := by
  rw [convertSuppliesToJson, if_pos granted.1, if_pos granted.2]
  rfl

theorem Supplies.amount_report (supplies : Supplies) (counter : Counter) :
    supplies.report.amount counter =
      some (saturateInt (supplies.counter counter)) := by
  cases counter <;> rfl

theorem Supplies.intValued_report {supplies : Supplies}
    (representable : ∀ counter, InInt (supplies.counter counter)) :
    supplies.report.IntValued := by
  have number : ∀ counter,
      (Json.number (supplies.counter counter)).IntValued :=
    fun counter => .number (representable counter)
  have food : (Json.object [
      (ascii "meat", .number supplies.food.meat),
      (ascii "vegetables", .number supplies.food.vegetables),
      (ascii "fruits", .number supplies.food.fruits),
      (ascii "water", .number supplies.food.water)]).IntValued := by
    apply Json.IntValued.object
    simp only [List.forall_mem_cons, List.not_mem_nil, false_imp_iff,
      implies_true, and_true]
    exact ⟨number .meat, number .vegetables, number .fruits, number .water⟩
  have medicine : (Json.object [
      (ascii "antibiotics", .number supplies.medicine.antibiotics),
      (ascii "analgesics", .number supplies.medicine.analgesics),
      (ascii "bandages", .number supplies.medicine.bandages)]).IntValued := by
    apply Json.IntValued.object
    simp only [List.forall_mem_cons, List.not_mem_nil, false_imp_iff,
      implies_true, and_true]
    exact ⟨number .antibiotics, number .analgesics, number .bandages⟩
  apply Json.IntValued.object
  simp only [List.forall_mem_cons, List.not_mem_nil, false_imp_iff,
    implies_true, and_true]
  exact ⟨food, medicine⟩

theorem Supplies.ext_counter {left right : Supplies}
    (same : ∀ counter, left.counter counter = right.counter counter) :
    left = right := by
  rcases left with ⟨⟨meat, vegetables, fruits, water⟩,
    ⟨antibiotics, analgesics, bandages⟩⟩
  obtain rfl : meat = _ := same .meat
  obtain rfl : vegetables = _ := same .vegetables
  obtain rfl : fruits = _ := same .fruits
  obtain rfl : water = _ := same .water
  obtain rfl : antibiotics = _ := same .antibiotics
  obtain rfl : analgesics = _ := same .analgesics
  obtain rfl : bandages = _ := same .bandages
  rfl

/-- A reply is sent back as an update: it adds the reported stocks to those
held, and restores them where nothing was held. -/
def Supplies.RestoredBy (parse : Bytes → Option Json) (print : Json → Bytes)
    (stocks held : Supplies) (reply : Json) : Prop :=
  ∃ request updated, parse (print reply) = some request ∧
    updateSuppliesFromJson .granted held request = .updated updated ∧
    (∀ counter, updated.counter counter =
      held.counter counter + stocks.counter counter) ∧
    (held = .zero → updated = stocks)

theorem Supplies.restoredBy_report {parse : Bytes → Option Json}
    {print : Json → Bytes}
    {stocks held : Supplies}
    (library : RestoresIntValued parse print stocks.report)
    (stocked : ∀ counter, 0 ≤ stocks.counter counter)
    (nonneg : ∀ counter, 0 ≤ held.counter counter)
    (sums : ∀ counter,
      held.counter counter + stocks.counter counter ≤ intMax) :
    stocks.RestoredBy parse print held stocks.report := by
  have representable : ∀ counter, InInt (stocks.counter counter) := by
    intro counter
    have low := stocked counter
    have lowHeld := nonneg counter
    have high := sums counter
    unfold InInt intMin
    omega
  have added : ∀ counter, (held.update stocks.report).counter counter =
      held.counter counter + stocks.counter counter := by
    intro counter
    have sum : InInt (held.counter counter + stocks.counter counter) :=
      inInt_add_of_le (nonneg counter) (representable counter) (sums counter)
    rw [Supplies.counter_update, Supplies.amount_report,
      saturateInt_of_inInt (representable counter), addAmount_of_inInt sum,
      clampAdd]
    exact max_eq_right (add_nonneg (nonneg counter) (stocked counter))
  refine ⟨_, _, library (Supplies.intValued_report representable),
    updateSuppliesFromJson_of_granted SegmentAccess.granted_Granted held _,
    added, ?_⟩
  rintro rfl
  refine Supplies.ext_counter fun counter => ?_
  have total := added counter
  rwa [Supplies.counter_zero, zero_add] at total

theorem exec_createSummaryJson {context : RequestContext}
    (granted : context.summaryAccess.Granted) (server : Server) :
    exec (createSummaryJson context) server =
      (.ok (server.summaryObject context.behindEmergencyInfo
        server.supplies.report), server) := by
  rw [createSummaryJson, currentSupplies, bind_assoc,
    exec_bind_of_ok (exec_get server),
    convertSuppliesToJson_eq_report granted]
  rfl

/-- What a status reply and a summary report is what an update takes: sent
back, it adds the reported stocks, component by component. -/
theorem updateSuppliesFromJson_restores {parse : Bytes → Option Json}
    {print : Json → Bytes}
    {stocks held : Supplies}
    (library : RestoresIntValued parse print stocks.report)
    (stocked : ∀ counter, 0 ≤ stocks.counter counter)
    (nonneg : ∀ counter, 0 ≤ held.counter counter)
    (sums : ∀ counter,
      held.counter counter + stocks.counter counter ≤ intMax) :
    (∃ reply, convertSuppliesToJson .granted stocks = some reply ∧
      stocks.RestoredBy parse print held reply) ∧
    ∀ (server : Server) (context : RequestContext),
      server.supplies = stocks → context.summaryAccess.Granted →
      ∃ summary reply,
        exec (createSummaryJson context) server = (.ok summary, server) ∧
        summary.getObjectItem (ascii "supplies") = some reply ∧
        stocks.RestoredBy parse print held reply := by
  have restored := Supplies.restoredBy_report library stocked nonneg sums
  constructor
  · exact ⟨_, convertSuppliesToJson_eq_report SegmentAccess.granted_Granted
      stocks, restored⟩
  · rintro server context rfl granted
    exact ⟨_, _, exec_createSummaryJson granted server, rfl, restored⟩

/-- Five of each food and seven of each medicine. -/
def fiveAndSeven : Supplies := ⟨⟨5, 5, 5, 5⟩, ⟨7, 7, 7⟩⟩

/-- What `cJSON_Print` makes of the report of these supplies. -/
def fiveAndSevenText : Bytes :=
  ascii "\x7b\n\t\"food\":\t\x7b\n\t\t\"meat\":\t5,\n" ++
    ascii "\t\t\"vegetables\":\t5,\n\t\t\"fruits\":\t5,\n" ++
    ascii "\t\t\"water\":\t5\n\t\x7d,\n" ++
    ascii "\t\"medicine\":\t\x7b\n\t\t\"antibiotics\":\t7,\n" ++
    ascii "\t\t\"analgesics\":\t7,\n\t\t\"bandages\":\t7\n\t\x7d\n\x7d"

theorem updateSuppliesFromJson_restores_fiveAndSeven :
    (∃ reply, convertSuppliesToJson .granted fiveAndSeven = some reply ∧
      fiveAndSeven.RestoredBy
        (Json.parseFirst fiveAndSevenText fiveAndSeven.report)
        (fun _ => fiveAndSevenText) .zero reply) ∧
    ∀ (server : Server) (context : RequestContext),
      server.supplies = fiveAndSeven → context.summaryAccess.Granted →
      ∃ summary reply,
        exec (createSummaryJson context) server = (.ok summary, server) ∧
        summary.getObjectItem (ascii "supplies") = some reply ∧
        fiveAndSeven.RestoredBy
          (Json.parseFirst fiveAndSevenText fiveAndSeven.report)
          (fun _ => fiveAndSevenText) .zero reply := by
  refine updateSuppliesFromJson_restores (fun _ => ?_) ?_ ?_ ?_
  · exact if_pos List.prefix_rfl
  · intro counter
    cases counter <;> decide
  · intro counter
    exact le_of_eq (Supplies.counter_zero counter).symm
  · intro counter
    cases counter <;> decide

end ShelterServer
