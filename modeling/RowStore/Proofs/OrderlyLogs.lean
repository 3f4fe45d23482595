import RowStore.Proofs.CallFrames
import RowStore.Proofs.Interruptions
import RowStore.Proofs.PopulatedRuns

/-!
# The log of a transaction is orderly

What a client does in a transaction (`Act`): it makes requests, opens scans, pulls, visits and closes them, and reads
plans out.  While the engine works for it, the client's functions do all this, too, one act amid the other, and others
work on the database (`play`).  Every act is steady, by induction over what is done amid it (`steady_run`, `steady_play`).

So each cursor of the log is locked before it is used if it was opened by somebody who may write, and neither locked nor
written through otherwise; its history begins with its opening and ends with its closing (`Orderly`).
-/
namespace RowStore
namespace Memory

open Attempt

/-! ## Acts -/

/-- What is done in a transaction.  An act on a scan comes with the acts that are done before each of the engine's calls,
and with a number of entries that they may put in front of the scan. -/
inductive Act (ρ : Type)
  | request (request : Request) (schema : TableSchema)
  | openScan (plan : Plan) (write : Bool) (entries : Nat) (amid : List (List (Act ρ)))
  /-- The next row of a scan is asked for. -/
  | pull (scan : Nat) (entries : Nat) (amid : List (List (Act ρ)))
  /-- A sweep visits the next row of a scan. -/
  | visit (scan : Nat) (decide : Row → Mutation) (entries : Nat) (amid : List (List (Act ρ)))
  /-- A scan is closed, or let go of. -/
  | close (scan : Nat) (entries : Nat) (amid : List (List (Act ρ)))
  | forEach (plan : Plan) (visit : ρ → Row → ρ) (notes : ρ) (entries : Nat) (amid : List (List (Act ρ)))
  | fold (plan : Plan) (f : ρ → Row → ρ) (initial : ρ) (entries : Nat) (amid : List (List (Act ρ)))
  /-- A call that is no work of the transaction. -/
  | others (call : Call)
  | finish (commit : Bool)

/-- A scan that is kept is used by somebody, and kept again. -/
def World.use (w : World) (n : Nat) (turns : Turns)
    (f : Scan Cursor × Turns × World → Scan Cursor × Turns × World) : World :=
  match w.scans[n]? with
  | none => w
  | some scan =>
    let (scan, _, w) := f (scan, turns, { w with scans := w.scans.eraseIdx n })
    { w with scans := w.scans ++ [scan] }

/-- A scan that could be opened is kept. -/
def keepScan : Except Error (Scan Cursor) × Turns × World → World
  | (.ok scan, _, w) => { w with scans := w.scans ++ [scan] }
  | (.error _, _, w) => w

section
variable {ρ : Type} (txn : Transaction)

mutual
/-- What becomes of the world by an act. -/
def Act.run : Act ρ → World → World
  | .request request schema, w =>
    w.become txn.id request.writes (quietly (request.perform engine txn schema) w.db)
  | .openScan plan write entries amid, w =>
    keepScan (Scan.open (interrupted txn.id write entries) txn plan write (turnsOf amid, w))
  | .pull scan entries amid, w =>
    w.use scan (turnsOf amid) fun here => (Scan.next (interrupted txn.id false entries) here).2
  | .visit scan decide entries amid, w =>
    w.use scan (turnsOf amid) fun here =>
      (Sweep.next (interrupted txn.id true entries) txn (fun row (notes : Unit) => (decide row, notes)) ((), here)).2.2
  | .close scan entries amid, w =>
    w.use scan (turnsOf amid) fun here => (Scan.close (interrupted txn.id false entries) here).2
  | .forEach plan visit notes entries amid, w =>
    (Scan.forEach (interrupted txn.id false entries) txn plan visit (notes, turnsOf amid, w)).2.2.2
  | .fold plan f initial entries amid, w =>
    (Scan.fold (interrupted txn.id false entries) txn plan f initial (turnsOf amid, w)).2.2
  | .others call, w => if call.owner? = some txn.id then w else { w with db := call.effect w.db }
  | .finish commit, w => { w with db := quietly (Database.finish txn.id commit) w.db }

/-- The acts of each turn. -/
def turnsOf : List (List (Act ρ)) → Turns
  | [] => []
  | acts :: amid => play acts :: turnsOf amid

/-- What becomes of the world by some acts, one after the other. -/
def play : List (Act ρ) → World → World
  | [], w => w
  | act :: acts, w => play acts (act.run w)
end

end

/-! ## From the beginning of an act to its end -/

variable {id : Nat} {write : Bool} {busy names : List Nat} {w start : World} {turns turns' : Turns} {told : List (Deed Nat)}

namespace Amid

theorem begins (h : Sound id busy w) (hsteady : ∀ turn ∈ turns, Steady id turn) : Amid id write busy [] w [] [] (turns, w) where
  steady := hsteady
  sound := by
    rw [List.nil_append]
    exact (List.append_nil busy).symm ▸ h
  kept := .refl
  histories _ hi := by cases hi
  named _ hi := by cases hi
  opened _ hi := by cases hi
  distinct := List.nodup_nil
  own _ hc := by cases hc

/-- **Nothing is left of an act** that has settled all its cursors. -/
theorem rest (h : Amid id write busy names start told [] (turns, w))
    (hsettled : ∀ i ∈ names ++ openings told, Settled (w.signed i) (after told (start.db.history id) i)) :
    Sound id busy w ∧ Untold id busy start w := by
  refine ⟨h.sound.settle fun i hi => .inr ?_, h.kept⟩
  rw [show w.db.history id i = _ from h.histories i hi]
  exact hsettled i hi

end Amid

theorem atProgress_begins (write : Bool) {progress : Progress Cursor} (h : Sound id (busy ++ numbersOf progress) w)
    (hstands : StandsIn id w progress) (hsteady : ∀ turn ∈ turns, Steady id turn) :
    (amidWatch id write busy (numbersOf progress) w).atProgress [] 0 [] (progress, (turns, w)) := by
  have hamid : ∀ cursors : List Cursor, (cursors.map Cursor.id).Nodup → (∀ c ∈ cursors, c.id ∈ numbersOf progress ∧
      c.transaction = id ∧ (c.closed = true ↔ .closed ∈ w.db.history id c.id)) →
        Amid id write busy (numbersOf progress) w [] cursors (turns, w) := fun cursors hdistinct hown => {
    steady := hsteady
    sound := (List.append_nil (numbersOf progress)).symm ▸ h
    kept := .refl
    histories := fun _ _ => rfl
    named := fun _ _ => rfl
    opened := fun _ hi => by cases hi
    distinct := hdistinct
    own := fun c hc => ⟨List.mem_append_left _ (hown c hc).1, (hown c hc).2⟩ }
  cases progress with
  | closed => exact hamid [] List.nodup_nil fun _ hc => by cases hc
  | running held row =>
    obtain ⟨hlive, hown, -⟩ := hstands
    refine ⟨hlive, rfl, hamid _ ?_ fun c hc => ?_⟩
    · rw [List.append_nil]
      exact (List.nodup_append'.1 (List.nodup_append'.1 h.apart).1).2.1
    · rw [List.append_nil] at hc
      exact ⟨List.mem_map_of_mem hc, hown c hc⟩

theorem left_amidWatch (progress : Progress Cursor) :
    (amidWatch id write busy names start).left progress = leftOf progress := by
  cases progress <;> rfl

/-- An act that ends with a scan is amid the others like any other. -/
theorem amid_of_atProgress {progress : Progress Cursor} {x : Turns × World}
    (h : (amidWatch id write busy names start).atProgress [] 0 told (progress, x)) :
    ∃ cursors, Amid id write busy names start told cursors x ∧ numbersOf progress = cursors.map Cursor.id := by
  cases progress with
  | closed => exact ⟨[], h, rfl⟩
  | running held row => exact ⟨held.cursors.list ++ [], h.2.2, by rw [List.append_nil]; rfl⟩

/-- **A scan is left behind by an act** if it stands, and if the act has settled all its other cursors. -/
theorem leaves (start : World) (write' : Bool) {scan : Scan Cursor}
    (h : (amidWatch id write busy names start).atProgress [] 0 told (scan.progress, (turns, w)))
    (hstands : ∀ n, leftOf scan.progress = some n → Serving n write' (after told (start.db.history id)))
    (hsigned : ∀ i ∈ numbersOf scan.progress, w.signed i = write')
    (hsettled : ∀ i ∈ names ++ openings told, i ∉ numbersOf scan.progress →
      Settled (w.signed i) (after told (start.db.history id) i)) :
    Sound id busy { w with scans := w.scans ++ [scan] } ∧ Untold id busy start { w with scans := w.scans ++ [scan] } := by
  obtain ⟨cursors, hamid, hnumbers⟩ := amid_of_atProgress h
  have hmine : ∀ i ∈ numbersOf scan.progress, i ∈ names ++ openings told := fun i hi => by
    rw [hnumbers] at hi
    obtain ⟨c, hc, rfl⟩ := List.mem_map.1 hi
    exact (hamid.own c hc).1
  refine ⟨hamid.sound.keeping hmine (hnumbers ▸ hamid.distinct) ?_ fun i hi hout => ?_, hamid.kept⟩
  · obtain ⟨plan, progress⟩ := scan
    cases progress with
    | closed => exact True.intro
    | running held row =>
      have hmem : ∀ c ∈ held.cursors.list, c.id ∈ numbersOf (.running held row) := fun c hc => List.mem_map_of_mem hc
      refine ⟨h.1, fun c hc => (Amid.own h.2.2 c (List.mem_append_left _ hc)).2, write', (hstands _ rfl).congr fun i hi => ?_,
        fun c hc => hsigned _ (hmem c hc)⟩
      rw [list_namesOf] at hi
      exact hamid.histories i (hmine i hi)
  · rw [show w.db.history id i = _ from hamid.histories i hi]
    exact hsettled i hi hout

/-! ## Every act is steady -/

/-- What a client does with a scan: it keeps its cursors, or settles them, and settles what it opens. -/
def Handles (id : Nat) (write : Bool) (f : Scan Cursor × Turns × World → Scan Cursor × Turns × World) : Prop :=
  ∀ busy start scan turns, (amidWatch id write busy (numbersOf scan.progress) start).atProgress [] 0 []
    (scan.progress, (turns, start)) → ∃ told,
      (amidWatch id write busy (numbersOf scan.progress) start).atProgress [] 0 told (Scan.view (f (scan, turns, start))) ∧
        ∀ write', (∀ n, leftOf scan.progress = some n → Serving n write' (start.db.history id)) →
          Fared (leftOf scan.progress) (leftOf (f (scan, turns, start)).1.progress) write' (after told (start.db.history id)) ∧
            ∀ i ∈ openings told, Settled write (after told (start.db.history id) i)

/-- **To use a scan is steady.** -/
theorem steady_use {f : Scan Cursor × Turns × World → Scan Cursor × Turns × World} (hf : Handles id write f)
    (hsteady : ∀ turn ∈ turns, Steady id turn) (n : Nat) : Steady id fun w => w.use n turns f := by
  intro busy w hsound
  show Sound id busy (w.use n turns f) ∧ Untold id busy w (w.use n turns f)
  unfold World.use
  cases hscan : w.scans[n]? with
  | none => exact ⟨hsound, .refl⟩
  | some scan =>
    have hstands : StandsIn id { w with scans := w.scans.eraseIdx n } scan.progress :=
      hsound.standing scan (List.mem_of_getElem? hscan)
    obtain ⟨write', hserving, hsigned⟩ := hstands.serving
    obtain ⟨told, hafter, hfared⟩ := hf _ _ scan turns
      (atProgress_begins write (hsound.withdraw hscan) hstands hsteady)
    obtain ⟨hfared, hopened⟩ := hfared write' hserving
    dsimp only
    generalize f (scan, turns, { w with scans := w.scans.eraseIdx n }) = here at hafter hfared
    obtain ⟨scan', turns', w'⟩ := here
    obtain ⟨cursors, hamid, -⟩ := amid_of_atProgress hafter
    have hnamed : ∀ i ∈ numbersOf scan.progress, w'.signed i = write' := fun i hi =>
      (hamid.named i hi).trans (hsigned i hi)
    refine leaves { w with scans := w.scans.eraseIdx n } write' hafter (fun n hn => hfared.serving hn)
      (fun i hi => hnamed i (hfared.mem_numbers hi)) fun i hi hout => ?_
    rcases List.mem_append.1 hi with hi | hi
    · rw [hnamed i hi]
      exact hfared.settled hi hout
    · rw [hamid.opened i hi]
      exact hopened i hi

/-- Pulling a scan leaves its cursors serving, or settles them. -/
theorem handles_pulls (write : Bool) {f : Scan Cursor × Turns × World → Scan Cursor × Turns × World} {α : Type}
    {m : Action (Scan Cursor × Turns × World) α} (hm : ∀ busy names start,
      (amidWatch id write busy names start).Pulls Scan.view m) (hf : ∀ here, f here = (m here).2) : Handles id write f := by
  intro busy start scan turns hat
  obtain ⟨told, hpulled, hafter⟩ := hm busy _ start [] 0 [] (scan, turns, start) hat
  rw [hf]
  refine ⟨told, hafter, fun write' hserving => ?_⟩
  unfold Scan.view at hpulled
  rw [left_amidWatch, left_amidWatch] at hpulled
  refine ⟨.pulled hserving hpulled, fun i hi => ?_⟩
  rw [openings_pulled hpulled] at hi
  cases hi

/-- **A visit settles the cursor of its request.** -/
theorem handles_visit (txn : Transaction) (decide : Row → Unit → Mutation × Unit) (entries : Nat) :
    Handles txn.id true fun here => (Sweep.next (interrupted txn.id true entries) txn decide ((), here)).2.2 := by
  intro busy start scan turns hat
  obtain ⟨between, -, told, more, closing, hvisited, -, -, hafter⟩ :=
    (watched_interrupted txn true entries busy (numbersOf scan.progress) start).visit decide [] 0 [] ((), scan, turns, start)
      hat
  refine ⟨told ++ (more ++ closing), hafter, fun write' hserving => ?_⟩
  rw [left_amidWatch, left_amidWatch, left_amidWatch] at hvisited
  obtain ⟨cursors, hamid, -⟩ := amid_of_atProgress hafter
  have hopenings := openings_visited hvisited
  have hapart := (List.nodup_append'.1 (List.nodup_append'.1 hamid.sound.apart).1).2.1
  rw [List.nil_append, hopenings] at hapart
  rw [hopenings]
  refine history_visited hserving hvisited fun n hn i hi hnew => ?_
  rw [← numbersOf_of_some hn] at hi
  exact (List.nodup_append'.1 hapart).2.2 hi hnew

theorem Amid.nodup_openings {cursors : List Cursor} {x : Turns × World}
    (h : Amid id write busy names start told cursors x) : (openings told).Nodup :=
  (List.nodup_append'.1 (List.nodup_append'.1 (List.nodup_append'.1 h.sound.apart).1).2.1).2.1

/-- **What was opened in vain, or read out, leaves nothing.** -/
theorem rest_of_opened {table : String} {r : Except Error Unit} (hopened : Opened table write none r told)
    (h : Amid id write busy [] start told [] (turns, w)) : Sound id busy w ∧ Untold id busy start w := by
  refine h.rest fun i hi => ?_
  rw [List.nil_append] at hi
  rw [h.opened i hi]
  rcases history_opened (start.db.history id) hopened h.nodup_openings with ⟨n, hn, -⟩ | ⟨-, hsettled⟩
  · cases hn
  · exact hsettled i hi

/-- **A scan is opened and kept.** -/
theorem steady_openScan (txn : Transaction) (plan : Plan) (write : Bool) (entries : Nat)
    (hsteady : ∀ turn ∈ turns, Steady txn.id turn) :
    Steady txn.id fun w => keepScan (Scan.open (interrupted txn.id write entries) txn plan write (turns, w)) := by
  intro busy w hsound
  have hstart : (amidWatch txn.id write busy [] w).idle [] 0 [] (turns, w) := Amid.begins hsound hsteady
  obtain ⟨told, hopened, hafter⟩ := (watched_interrupted txn write entries busy [] w).open plan write [] (turns, w) hstart
  dsimp only
  rcases hopen : Scan.open (interrupted txn.id write entries) txn plan write (turns, w) with ⟨e | scan, turns', w'⟩ <;>
    rw [hopen] at hopened hafter
  · exact rest_of_opened hopened hafter
  have hopened : Opened plan.target.schema.name write ((amidWatch txn.id write busy [] w).left scan.progress) (.ok ()) told :=
    hopened
  rw [left_amidWatch] at hopened
  obtain ⟨cursors, hamid, -⟩ := amid_of_atProgress hafter
  have hamid : Amid txn.id write busy [] w told cursors (turns', w') := hamid
  rcases history_opened (w.db.history txn.id) hopened hamid.nodup_openings with
    ⟨n, hn, hopenings, hserving⟩ | ⟨hnone, hsettled⟩
  · have hlist : ∀ i, i ∈ n.list ↔ i ∈ openings told := fun i => by
      rw [hopenings]
      obtain ⟨t, _ | j⟩ := n <;> simp [Cursors.list, or_comm]
    refine leaves w write hafter (fun n' hn' => ?_) (fun i hi => ?_) fun i hi hout => ?_
    · cases hn.symm.trans hn'
      exact hserving
    · rw [numbersOf_of_some hn, hlist] at hi
      exact hamid.opened i hi
    · rw [numbersOf_of_some hn, hlist] at hout
      exact absurd hi hout
  · refine leaves w write hafter (fun n hn => ?_) (fun i hi => ?_) fun i hi _ => ?_
    · cases hnone.symm.trans hn
    · rw [numbersOf_of_none hnone] at hi
      cases hi
    · exact (hamid.opened i hi).symm ▸ hsettled i hi

/-- **A request settles its cursor.** -/
theorem steady_request (txn : Transaction) (request : Request) (schema : TableSchema) :
    Steady txn.id fun w => w.become txn.id request.writes (quietly (request.perform engine txn schema) w.db) := by
  intro busy w hsound
  have hstart : Journaled txn.id [] (w.db.history txn.id) w.db [] [] w.db :=
    .refl List.nodup_nil (fun _ hc => by cases hc) (fun _ hi => by cases hi) fun i hi => hsound.blank hi
  obtain ⟨told, hsingle, hj⟩ := (watched_journal txn [] (w.db.history txn.id) w.db).perform schema request [] 0 []
    w.db hstart
  have hj : Journaled txn.id [] (w.db.history txn.id) w.db told [] (quietly (request.perform engine txn schema) w.db) := hj
  refine ⟨(hsound.become request.writes hj fun _ hi => by cases hi).settle fun i hi => .inr ?_, fun i hi =>
    kept_become hj fun hmem => hsound.new hj hmem (List.mem_append_left _ hi)⟩
  have hunsigned : w.signed i = false := hsound.unsigned <| by
    rw [hj.opened] at hi
    exact (List.mem_range'_1.1 hi).1
  rw [signed_become hj, hunsigned, decide_eq_true hi, Bool.and_true, Bool.false_or]
  show Settled request.writes ((quietly (request.perform engine txn schema) w.db).history txn.id i)
  rw [history_become hj]
  rcases history_single hsingle with ⟨-, hopen, -⟩ | ⟨j, hopen, hsettled, -⟩
  · rw [hopen] at hi
    cases hi
  · rw [hopen] at hi
    cases List.mem_singleton.1 hi
    exact hsettled _

/-- What logs nothing changes nothing of the transaction's cursors. -/
theorem steady_silent {f : Database → Database}
    (hf : ∀ db, id < db.nextTransaction → (f db).journal id = db.journal id ∧ id < (f db).nextTransaction) :
    Steady id fun w => { w with db := f w.db } := by
  intro busy w hsound
  obtain ⟨hjournal, hbegun⟩ := hf w.db hsound.begun
  have hmarks : (f w.db).marks id = w.db.marks id := congrArg Prod.snd hjournal
  have hnext : (f w.db).nextCursor id = w.db.nextCursor id := congrArg Prod.fst hjournal
  have hhistory : (f w.db).history id = w.db.history id := by
    unfold Database.history
    rw [hmarks]
  have hkept : ∀ busy, Untold id busy w { w with db := f w.db } := fun _ i _ => ⟨congrFun hhistory i, rfl⟩
  exact ⟨{
    begun := hbegun
    numbered := fun e he => hnext ▸ hsound.numbered e (hmarks ▸ he)
    signed := fun i hi => hnext ▸ hsound.signed i hi
    taken := fun i hi => hnext ▸ hsound.taken i hi
    apart := hsound.apart
    standing := fun scan hscan => (hsound.standing scan hscan).congr (hkept _)
    settled := fun i hi => by
      show (f w.db).history id i = [] ∨ Settled (w.signed i) ((f w.db).history id i)
      rw [hhistory]
      exact hsound.settled i hi }, hkept busy⟩

/-- **Reading a plan out is steady.** -/
theorem steady_forEach {ρ : Type} (txn : Transaction) (plan : Plan) (visit : ρ → Row → ρ) (notes : ρ) (entries : Nat)
    (hsteady : ∀ turn ∈ turns, Steady txn.id turn) : Steady txn.id fun w =>
      (Scan.forEach (interrupted txn.id false entries) txn plan visit (notes, turns, w)).2.2.2 := by
  intro busy w hsound
  obtain ⟨told, hopened, hafter⟩ := (watched_interrupted txn false entries busy [] w).forEach plan visit [] 0 []
    (notes, turns, w) (Amid.begins hsound hsteady)
  exact rest_of_opened hopened hafter

theorem steady_fold {ρ : Type} (txn : Transaction) (plan : Plan) (f : ρ → Row → ρ) (initial : ρ) (entries : Nat)
    (hsteady : ∀ turn ∈ turns, Steady txn.id turn) : Steady txn.id fun w =>
      (Scan.fold (interrupted txn.id false entries) txn plan f initial (turns, w)).2.2 := by
  intro busy w hsound
  obtain ⟨told, hopened, hafter⟩ := (watched_interrupted txn false entries busy [] w).fold plan f initial [] 0 []
    (turns, w) (Amid.begins hsound hsteady)
  exact rest_of_opened hopened hafter

/-- Calls that are no work of a transaction log nothing for it. -/
theorem journal_others {call : Call} (h : call.owner? ≠ some id) {db : Database} (hbegun : id < db.nextTransaction) :
    (call.effect db).journal id = db.journal id ∧ id < (call.effect db).nextTransaction := by
  refine ⟨?_, ?_⟩
  · rcases Database.workspace_cases call db id with hsame | ⟨level, -, heq⟩ | ⟨name, hon⟩ | ⟨hends, -⟩
    · unfold Database.journal Database.marks
      rw [hsame]
    · exact absurd heq (Nat.ne_of_lt hbegun)
    · exact absurd hon.1 h
    · exact absurd hends.1 h
  · rcases Database.nextTransaction_effect call db with hnext | ⟨level, -, hnext⟩ <;> omega

/-- Nor does the end of the transaction. -/
theorem journal_finish (id : Nat) (commit : Bool) (db : Database) :
    (quietly (Database.finish id commit) db).journal id = db.journal id ∧
      (quietly (Database.finish id commit) db).nextTransaction = db.nextTransaction := by
  refine ⟨?_, Database.finish_next commit⟩
  unfold quietly
  by_cases hactive : (db.workspace id).state = .active
  · rw [Database.finish_of_active hactive]
    exact Database.journal_setWorkspace _ _ _
  · rw [Database.finish_of_not_active hactive]

section
variable {ρ : Type} (txn : Transaction)

mutual
/-- **Every act is steady**, whatever is done amid it. -/
theorem steady_run : ∀ act : Act ρ, Steady txn.id (act.run txn)
  | .request request schema => steady_request txn request schema
  -- what is done amid an act is steady because it is smaller
  | .openScan plan write entries amid => steady_openScan txn plan write entries (steady_turnsOf amid)
  | .pull scan entries amid =>
    steady_use (handles_pulls false (fun busy names start =>
      (watched_interrupted txn false entries busy names start).next) fun _ => rfl) (steady_turnsOf amid) scan
  | .visit scan decide entries amid => steady_use (handles_visit txn _ entries) (steady_turnsOf amid) scan
  | .close scan entries amid =>
    steady_use (handles_pulls false (fun busy names start =>
      (watched_interrupted txn false entries busy names start).close_pulls) fun _ => rfl) (steady_turnsOf amid) scan
  | .forEach plan visit notes entries amid => steady_forEach txn plan visit notes entries (steady_turnsOf amid)
  | .fold plan f initial entries amid => steady_fold txn plan f initial entries (steady_turnsOf amid)
  | .others call => fun busy w hsound => by
    unfold Act.run
    split
    · exact ⟨hsound, .refl⟩
    · rename_i howner
      exact steady_silent (fun db hbegun => journal_others howner hbegun) busy w hsound
  | .finish commit => steady_silent fun db hbegun =>
    ⟨(journal_finish txn.id commit db).1, (journal_finish txn.id commit db).2 ▸ hbegun⟩

theorem steady_turnsOf : ∀ amid : List (List (Act ρ)), ∀ turn ∈ turnsOf txn amid, Steady txn.id turn
  | [], _, hturn => by cases hturn
  | acts :: amid, turn, hturn => by
    rcases List.mem_cons.1 hturn with rfl | hturn
    · exact steady_play acts
    · exact steady_turnsOf amid turn hturn

/-- **So are some acts, one after the other.** -/
theorem steady_play : ∀ acts : List (Act ρ), Steady txn.id (play txn acts)
  | [] => fun _ _ hsound => ⟨hsound, .refl⟩
  | act :: acts => fun busy w hsound => by
    obtain ⟨hrun, hkept⟩ := steady_run act busy w hsound
    obtain ⟨hplay, hkept'⟩ := steady_play acts busy _ hrun
    exact ⟨hplay, hkept.trans hkept'⟩
end

end

/-! ## Logs -/

theorem sound_begin (level : IsolationLevel) (db : Database) :
    Sound db.nextTransaction [] { db := (Call.begin level).effect db } := by
  have hworkspace := Database.workspace_begin level db
  have hmarks : ((Call.begin level).effect db).marks db.nextTransaction = [] := by
    unfold Database.marks
    rw [hworkspace]
    rfl
  exact {
    begun := Nat.lt_succ_self _
    numbered := fun e he => by
      rw [show World.db _ = _ from rfl, hmarks] at he
      cases he
    signed := fun _ hi => by cases hi
    taken := fun _ hi => by cases hi
    apart := List.nodup_nil
    standing := fun _ hscan => by cases hscan
    settled := fun i _ => .inl <| by
      unfold Database.history
      rw [show World.db _ = _ from rfl, hmarks]
      rfl }

/-- **Every history in a sound world is orderly.** -/
theorem Sound.orderly (h : Sound id [] w) (i : Nat) :
    w.db.history id i = [] ∨ Orderly (w.signed i) (w.db.history id i) := by
  by_cases hi : i ∈ w.numbers
  · obtain ⟨scan, hscan, hmem⟩ := List.mem_flatMap.1 hi
    obtain ⟨write, hserving, hsigned⟩ := (h.standing scan hscan).serving
    refine .inr ?_
    rw [hsigned i hmem]
    cases hleft : leftOf scan.progress with
    | none =>
      rw [numbersOf_of_none hleft] at hmem
      cases hmem
    | some n =>
      rw [numbersOf_of_some hleft] at hmem
      rcases eq_of_mem_list hmem with rfl | rfl
      · exact (hserving n hleft).reading.stillOpen.orderly
      · exact (hserving n hleft).tableOpen.orderly
  · exact (h.settled i hi).imp_right Settled.orderly

/-- **The log of a transaction is orderly**, whatever its client does, one act amid the other, and whatever others do
meanwhile.  And wherever a request is made, it logs the history of one cursor, from its opening to its closing, unless it
fails to open one. -/
theorem logs_are_orderly {ρ : Type} (before : List Call) (level : IsolationLevel) (acts : List (Act ρ)) :
    let db := Database.run before
    let txn : Transaction := ⟨db.nextTransaction, level⟩
    let w := play txn acts { db := (Call.begin level).effect db }
    (∀ i, w.db.history txn.id i = [] ∨ Orderly (w.signed i) (w.db.history txn.id i)) ∧
      ∀ (request : Request) (schema : TableSchema) (db : Database), Requested txn.id request.writes
        (request.perform engine txn schema db).1 db (request.perform engine txn schema db).2 := by
  intro db txn w
  have hsound : Sound txn.id [] w := (steady_play txn acts [] _ (sound_begin level db)).1
  exact ⟨hsound.orderly, fun request schema db => logs_request request txn schema db⟩

open Database in
/-- A sweep deletes the only person.  She is loaded amid the visit, through the third cursor, which is never locked; the
fourth is that of the deletion. -/
example : (fun w : World => [2, 3, 4].map (w.db.history 2)) (play (ρ := Unit) ⟨2, .readCommitted⟩
      [.request (.insert (person 1 "ada")) people, .openScan { target := ⟨people, none⟩ } true 0 [],
        .visit 0 .delete 0 [[.request (.load (person 1 "")) people]]]
      { db := (Call.begin .readCommitted).effect (run peopleCalls) }) =
    [[.opened false, .lockModeSet .intentionExclusive, .locked .exclusive, .searched, .closed],
      [.opened false, .searched, .closed],
      [.opened false, .lockModeSet .intentionExclusive, .locked .exclusive, .searched, .wrote, .closed]] := by
  cbv

end Memory
end RowStore
