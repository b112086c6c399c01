/-
# The currency of an entry

The posting procedure takes source and destination from the request, the charge and commission
wallets from the message, and the temporary reserve by a constant.  The module follows every
wallet into the lines of a posting and of a reversal, and proves that entries are in the currency
of their wallets exactly as long as first legs are posted in that of the reserve.
-/

import Finify.Posting.GiveBackOnce
import Finify.Pricing.Platform

namespace Finify.Pricing

open Finify.Foundations Finify.Posting

namespace Platform

variable (platform : Platform)

/-! ## The law -/

/-- `v_currency_mismatch` of a close: entries of its currency on wallets of another. -/
def currencyMismatches (currency : String) : List Entry :=
  platform.db.entries.rows.filter fun entry =>
    entry.currency = currency ∧
      ∃ card ∈ platform.cards.find? entry.accountNumber, card.currency.toUpper ≠ currency

/-- Every entry is in the currency of its wallet: no close finds a mismatch, and the entries of
a wallet are in one currency. -/
structure CurrenciesKept : Prop where
  entries : ∀ entry ∈ platform.db.entries.rows,
    platform.Holds entry.accountNumber entry.currency
  unblocked : ∀ currency, platform.currencyMismatches currency = []
  unmixed : ∀ first ∈ platform.db.entries.rows, ∀ second ∈ platform.db.entries.rows,
    first.accountNumber = second.accountNumber → first.currency = second.currency

/-- Transactions of which a first leg was posted are in the currency of the reserve. -/
def ReservesInCurrency : Prop :=
  ∀ request ∈ platform.db.requests.rows,
    (platform.db.findJournal request.transactionId .reserve).isSome →
      ∀ currency ∈ request.currency, platform.Holds tempWallet currency

end Platform

/-! ## The wallets of lines -/

/-- The wallets that the lines of a posting may name beside the reserve. -/
def Names (amounts : PostingAmounts) (terms : Terms) (wallet : ℤ) : Prop :=
  wallet = terms.source ∨ wallet = terms.destination ∨
    (wallet = amounts.chargeWallet ∧ 0 < amounts.chargeCredit) ∨
      (wallet = amounts.commissionWallet ∧ 0 < amounts.commissionDebit)

theorem mem_positiveLine {wallet : ℤ} {side : Side} {amount : Amount} {category : Category}
    {currency : String} {line : Line}
    (hline : line ∈ positiveLine wallet side amount category currency) :
    0 < amount ∧ line.wallet = wallet ∧ line.currency = currency := by
  unfold positiveLine at hline
  split at hline
  · rename_i hpos
    rw [List.mem_singleton.mp hline]
    exact ⟨hpos, rfl, rfl⟩
  · cases hline

theorem mem_distribution {amounts : PostingAmounts} {terms : Terms} {currency : String}
    {line : Line} (hline : line ∈ amounts.distribution terms currency) :
    line.currency = currency ∧ Names amounts terms line.wallet := by
  simp only [PostingAmounts.distribution, List.mem_append] at hline
  rcases hline with (((hline | hline) | hline) | hline) | hline
  · obtain ⟨hpos, hwallet, hcurrency⟩ := mem_positiveLine hline
    exact ⟨hcurrency, .inr (.inr (.inr ⟨hwallet, hpos⟩))⟩
  · obtain ⟨_, hwallet, hcurrency⟩ := mem_positiveLine hline
    exact ⟨hcurrency, .inr (.inl hwallet)⟩
  · obtain ⟨hpos, hwallet, hcurrency⟩ := mem_positiveLine hline
    exact ⟨hcurrency, .inr (.inr (.inl ⟨hwallet, hpos⟩))⟩
  · obtain ⟨_, hwallet, hcurrency⟩ := mem_positiveLine hline
    exact ⟨hcurrency, .inl hwallet⟩
  · obtain ⟨_, hwallet, hcurrency⟩ := mem_positiveLine hline
    exact ⟨hcurrency, .inr (.inl hwallet)⟩

/-- Where the wallet of a planned line comes from. -/
inductive LineOrigin (db : Db) (call : Call) (request : Request) (terms : Terms)
    (operation : Operation) (wallet : ℤ) : Prop
  | message (hfirst : operation = .direct ∨ operation = .reserve)
      (hnames : Names (postingAmounts call.payload request terms.amount) terms wallet)
  | settled (reservation : Journal) (hsettle : operation = .settle)
      (hfound : db.findJournal request.transactionId .reserve = some reservation)
      (hnames : Names (postingAmounts reservation.payload request terms.amount) terms wallet)
  | reserve (htemp : wallet = tempWallet)
      (hleg : operation = .reserve ∨ operation = .settle ∧
        (db.findJournal request.transactionId .reserve).isSome)
  | givenBack (entry : Entry) (hentry : entry ∈ db.entries.rows)
      (htransaction : ∃ journal ∈ db.journals.rows, entry.journalId = journal.id ∧
        journal.transactionId = request.transactionId)
      (hwallet : wallet = entry.accountNumber)

/-- Lines are in the currency of the posting, on wallets that the message, the reservation or
the entries given back name. -/
theorem line_origin {db : Db} {call : Call} {request : Request} {terms : Terms}
    {plan : Plan} (hplanned : Planned db call request terms plan) {line : Line}
    (hline : line ∈ plan.lines) :
    line.currency = postingCurrency request call.payload ∧
      LineOrigin db call request terms plan.operation line.wallet := by
  have hplan := hplanned.planned
  cases hoperation : plan.operation with
  | direct =>
    rw [hoperation] at hplan
    obtain ⟨_, rfl⟩ := planPosting_eq_ok (planFirstLeg_eq_ok hplan).2
    rcases List.mem_append.mp hline with hsource | hrest
    · obtain ⟨_, hwallet, hcurrency⟩ := mem_positiveLine hsource
      exact ⟨hcurrency, .message (.inl rfl) (.inl hwallet)⟩
    · obtain ⟨hcurrency, hnames⟩ := mem_distribution hrest
      exact ⟨hcurrency, .message (.inl rfl) hnames⟩
  | reserve =>
    rw [hoperation] at hplan
    obtain ⟨_, rfl⟩ := planPosting_eq_ok (planFirstLeg_eq_ok hplan).2
    rcases List.mem_cons.mp hline with hsource | hrest
    · rw [hsource]
      exact ⟨rfl, .message (.inr rfl) (.inl rfl)⟩
    · rw [List.mem_singleton.mp hrest]
      exact ⟨rfl, .reserve rfl (.inl rfl)⟩
  | settle =>
    rw [hoperation] at hplan
    obtain ⟨reservation, hreservation, _, hposting⟩ := Db.planSettle_eq_ok hplan
    obtain ⟨_, rfl⟩ := planPosting_eq_ok hposting
    rcases List.mem_cons.mp hline with htemp | hrest
    · rw [htemp]
      exact ⟨rfl, .reserve rfl (.inr ⟨rfl, by rw [hreservation]; rfl⟩)⟩
    · obtain ⟨hcurrency, hnames⟩ := mem_distribution hrest
      exact ⟨hcurrency, .settled reservation rfl hreservation hnames⟩
  | reverse mode =>
    rw [hoperation] at hplan
    obtain ⟨_, _, rfl⟩ := Db.planReverse_eq_ok hplan
    obtain ⟨entry, hentry, rfl⟩ := List.mem_map.mp hline
    obtain ⟨hmem, journal, hjournal, hid, hposted, _⟩ := Db.mem_reversalEntries.mp hentry
    exact ⟨rfl, .givenBack entry hmem
      ⟨journal, hjournal, hid, (Journal.postedIn_iff.mp hposted).1⟩ rfl⟩

/-! ## The entries of lines -/

/-- The entry records a line, currency included. -/
structure Records (header : Header) (line : Line) (entry : Entry) : Prop where
  transaction : entry.transactionId = header.transactionId
  journal : entry.journalId = header.journalId
  wallet : entry.accountNumber = line.wallet
  currency : entry.currency = line.currency

theorem postLine_records {header : Header} {before after : Db} {numbered : Line × ℕ}
    (hpost : Db.postLine header before numbered = some after) :
    ∃ entry, after.entries.rows = before.entries.rows ++ [entry] ∧
      Records header numbered.1 entry := by
  obtain ⟨line, lineNumber⟩ := numbered
  simp only [Db.postLine, Option.bind_eq_bind, Option.bind_eq_some_iff] at hpost
  obtain ⟨accountType, _, amount, _, hpost⟩ := hpost
  split at hpost
  · cases hpost
    exact ⟨_, before.entries.rows_append _ _, rfl, rfl, rfl, rfl⟩
  · cases hpost

/-- Posted lines are recorded by new entries, and these record nothing else. -/
structure Recorded (header : Header) (before after : Db) (lines : List Line)
    (entries : List Entry) : Prop where
  rows : after.entries.rows = before.entries.rows ++ entries
  of_line : ∀ line ∈ lines, ∃ entry ∈ entries, Records header line entry
  of_entry : ∀ entry ∈ entries, ∃ line ∈ lines, Records header line entry

theorem foldlM_recorded {header : Header} {numbered : List (Line × ℕ)} {before after : Db}
    (hpost : numbered.foldlM (Db.postLine header) before = some after) :
    ∃ entries, Recorded header before after (numbered.map Prod.fst) entries := by
  induction numbered generalizing before with
  | nil =>
    cases hpost
    refine ⟨[], (List.append_nil _).symm, ?_, ?_⟩
    · intro line hline
      cases hline
    · intro entry hentry
      cases hentry
  | cons first rest ih =>
    rw [List.foldlM_cons, Option.bind_eq_bind, Option.bind_eq_some_iff] at hpost
    obtain ⟨middle, hfirst, hrest⟩ := hpost
    obtain ⟨entry, hrows, hrecords⟩ := postLine_records hfirst
    obtain ⟨entries, hlater⟩ := ih hrest
    refine ⟨entry :: entries, ?_, ?_, ?_⟩
    · rw [hlater.rows, hrows, List.append_assoc, List.singleton_append]
    · intro line hline
      rcases List.mem_cons.mp hline with hhead | htail
      · rw [hhead]
        exact ⟨entry, List.mem_cons_self, hrecords⟩
      · obtain ⟨other, hother, hmade⟩ := hlater.of_line line htail
        exact ⟨other, List.mem_cons_of_mem _ hother, hmade⟩
    · intro other hother
      rcases List.mem_cons.mp hother with hhead | htail
      · rw [hhead]
        exact ⟨first.1, List.mem_cons_self, hrecords⟩
      · obtain ⟨line, hline, hmade⟩ := hlater.of_entry other htail
        exact ⟨line, List.mem_cons_of_mem _ hline, hmade⟩

/-- A committed plan adds an entry for each of its lines. -/
theorem commit_recorded {before after : Db} {plan : Plan} {journalId : ℕ}
    (hcommit : before.commit plan = some (journalId, after)) :
    ∃ entries, Recorded ⟨plan.transactionId, journalId⟩ before after plan.lines entries := by
  simp only [Db.commit, Option.bind_eq_bind, Option.bind_eq_some_iff, Option.pure_def,
    Option.some.injEq, Prod.mk.injEq, Prod.exists] at hcommit
  obtain ⟨id, opened, hopen, posted, hposted, _, _, charge, _, commission, _, rfl, rfl⟩ := hcommit
  obtain ⟨_, _, _, hopened⟩ := Db.openJournal_eq_some hopen
  obtain ⟨entries, hrecorded⟩ := foldlM_recorded hposted
  rw [List.zipIdx_map_fst] at hrecorded
  refine ⟨entries, ?_, hrecorded.of_line, hrecorded.of_entry⟩
  have hsame : opened.entries = before.entries := by rw [hopened]
  rw [← hsame, ← hrecorded.rows]
  show (posted.closeJournals plan).entries.rows = _
  rw [Db.closeJournals_eq]

/-- A call posts nothing, or carries out a plan line by line. -/
theorem call_cases {before after : Db} {call : Call} {result : Result}
    (hcall : before.directFinifyTransaction call = some (result, after)) :
    Quiet before after ∨ ∃ request terms plan journalId posted entries,
      Planned before call request terms plan ∧ Committed before plan journalId posted after ∧
        Recorded ⟨plan.transactionId, journalId⟩ before after plan.lines entries := by
  rcases Db.directFinifyTransaction_cases hcall with hexited | hposted
  · exact .inl hexited.quiet
  · obtain ⟨request, terms, plan, _, _, hplan, hplanned, _, _⟩ := hposted
    simp only [Db.directFinifyTransaction, hplan, Option.map_eq_some_iff, Prod.mk.injEq,
      Prod.exists] at hcall
    obtain ⟨journalId, committed, hcommit, _, rfl⟩ := hcall
    obtain ⟨posted, hcommitted⟩ := Db.commit_eq_some hcommit
    obtain ⟨entries, hrecorded⟩ := commit_recorded hcommit
    exact .inr ⟨request, terms, plan, journalId, posted, entries, hplanned, hcommitted, hrecorded⟩

/-! ## What no step changes of a request -/

/-- The accounts and the currency of a request. -/
structure Route where
  source : Option ℤ
  destination : Option ℤ
  currency : Option String

def routeOf (request : Request) : Route :=
  ⟨request.sourceWalletId, request.destWalletId, request.currency⟩

def route (db : Db) (transactionId : ℤ) : Option Route :=
  (db.requests.find? transactionId).map routeOf

theorem route_updateRequest (db : Db) (transactionId : ℤ) (change : Request → Request)
    (hkey : ∀ request, (change request).transactionId = request.transactionId)
    (hroute : ∀ request, routeOf (change request) = routeOf request) (other : ℤ) :
    route (db.updateRequest transactionId change hkey) other = route db other := by
  rw [route, Db.find?_updateRequest, route]
  by_cases hsame : other = transactionId
  · rw [if_pos hsame, Option.map_map]
    apply congrArg (Option.map · _)
    funext request
    exact hroute request
  · rw [if_neg hsame]

theorem route_quiet {before after : Db} (hquiet : Quiet before after) (transactionId : ℤ) :
    route after transactionId = route before transactionId := by
  rcases hquiet.find?_request transactionId with hsame | hfailed
  · rw [route, hsame, route]
  · rw [route, hfailed, Option.map_map, route]
    rfl

theorem route_committed {before after : Db} {plan : Plan} {journalId : ℕ} {entries : List Entry}
    (hcommitted : Committed before plan journalId entries after) (transactionId : ℤ) :
    route after transactionId = route before transactionId := by
  obtain ⟨charge, commission, _, _, hrequests⟩ := hcommitted.requests
  have hroute : route after transactionId =
      route (before.closeRequest plan charge commission) transactionId := by
    rw [route, hrequests, route]
  rw [hroute, Db.closeRequest]
  apply route_updateRequest
  intro request
  rfl

/-! ## The invariant -/

namespace Platform

/-- The accounts of the route are wallets of the currency. -/
structure Routed (platform : Platform) (route : Route) (currency : String) : Prop where
  ofCurrency : route.currency = some currency
  code : isCode currency
  source : ∀ wallet ∈ route.source, platform.Holds wallet currency
  destination : ∀ wallet ∈ route.destination, platform.Holds wallet currency

/-- The message takes charge and commission from wallets of the currency, if at all. -/
structure Drawn (platform : Platform) (message : Message) (currency : String) : Prop where
  charge : ∀ wallet ∈ message.chargeWallet, platform.Holds wallet currency
  uncharged : message.chargeWallet = none → message.chargeWalletCredit = 0
  commission : ∀ wallet ∈ message.commissionWallet, platform.Holds wallet currency
  uncommissioned : message.commissionWallet = none → message.commissionWalletDebit = 0

/-- The message belongs to a request and is in its currency. -/
def Sent (platform : Platform) (message : Message) : Prop :=
  ∃ found currency, route platform.db message.transactionId = some found ∧
    found.currency = some currency ∧ platform.Drawn message currency

/-- A first leg stored a published message and left an entry on the reserve. -/
structure FirstLeg (platform : Platform) (journal : Journal) : Prop where
  message : ∃ message ∈ platform.messages, journal.payload = message.payload ∧
    message.transactionId = journal.transactionId
  entry : ∃ entry ∈ platform.db.entries.rows, entry.accountNumber = tempWallet ∧
    entry.transactionId = journal.transactionId

def HasFirstLeg (platform : Platform) (transactionId : ℤ) : Prop :=
  ∃ journal ∈ platform.db.journals.rows, journal.transactionId = transactionId ∧
    journal.operation = .reserve

/-- An entry is in the currency of its transaction, and of its wallet unless it is one on the
reserve. -/
structure Traced (platform : Platform) (entry : Entry) : Prop where
  currency : ∃ found, route platform.db entry.transactionId = some found ∧
    found.currency = some entry.currency
  journal : ∃ journal ∈ platform.db.journals.rows, journal.id = entry.journalId ∧
    journal.transactionId = entry.transactionId
  wallet : platform.Holds entry.accountNumber entry.currency ∨
    entry.accountNumber = tempWallet ∧ platform.HasFirstLeg entry.transactionId

/-- What every run keeps. -/
structure Kept (platform : Platform) : Prop where
  codes : ∀ card ∈ platform.cards.rows, isCode card.currency
  routed : ∀ transactionId found, route platform.db transactionId = some found →
    ∃ currency, platform.Routed found currency
  sent : ∀ message ∈ platform.messages, platform.Sent message
  firstLegs : ∀ journal ∈ platform.db.journals.rows, journal.operation = .reserve →
    platform.FirstLeg journal
  traced : ∀ entry ∈ platform.db.entries.rows, platform.Traced entry

section

variable {before after : Platform}

/-- Wallets of before are wallets of after, in the same currency. -/
def Grows (before after : Platform) : Prop :=
  ∀ wallet currency, before.Holds wallet currency → after.Holds wallet currency

theorem Routed.grow {found : Route} {currency : String} (hrouted : before.Routed found currency)
    (hgrows : Grows before after) : after.Routed found currency where
  ofCurrency := hrouted.ofCurrency
  code := hrouted.code
  source wallet hwallet := hgrows _ _ (hrouted.source wallet hwallet)
  destination wallet hwallet := hgrows _ _ (hrouted.destination wallet hwallet)

theorem Drawn.grow {message : Message} {currency : String} (hdrawn : before.Drawn message currency)
    (hgrows : Grows before after) : after.Drawn message currency where
  charge wallet hwallet := hgrows _ _ (hdrawn.charge wallet hwallet)
  uncharged := hdrawn.uncharged
  commission wallet hwallet := hgrows _ _ (hdrawn.commission wallet hwallet)
  uncommissioned := hdrawn.uncommissioned

/-- Steps that post nothing keep the invariant, if what they add to requests and messages
meets it. -/
theorem Kept.extend (hkept : before.Kept) (hgrows : Grows before after)
    (hcodes : ∀ card ∈ after.cards.rows, isCode card.currency)
    (hroutes : ∀ transactionId found, route before.db transactionId = some found →
      route after.db transactionId = some found)
    (hrouted : ∀ transactionId found, route after.db transactionId = some found →
      route before.db transactionId = some found ∨ ∃ currency, after.Routed found currency)
    (hmessages : ∀ message ∈ before.messages, message ∈ after.messages)
    (hsent : ∀ message ∈ after.messages, message ∈ before.messages ∨ after.Sent message)
    (hjournals : after.db.journals = before.db.journals)
    (hentries : after.db.entries = before.db.entries) : after.Kept where
  codes := hcodes
  routed := by
    intro transactionId found hfound
    rcases hrouted transactionId found hfound with hold | hnew
    · obtain ⟨currency, hcurrency⟩ := hkept.routed transactionId found hold
      exact ⟨currency, hcurrency.grow hgrows⟩
    · exact hnew
  sent := by
    intro message hmessage
    rcases hsent message hmessage with hold | hnew
    · obtain ⟨found, currency, hfound, hcurrency, hdrawn⟩ := hkept.sent message hold
      exact ⟨found, currency, hroutes _ _ hfound, hcurrency, hdrawn.grow hgrows⟩
    · exact hnew
  firstLegs := by
    intro journal hjournal hreserve
    rw [hjournals] at hjournal
    obtain ⟨⟨message, hmessage, hpayload⟩, hentry⟩ := hkept.firstLegs journal hjournal hreserve
    rw [← hentries] at hentry
    exact ⟨⟨message, hmessages message hmessage, hpayload⟩, hentry⟩
  traced := by
    intro entry hentry
    rw [hentries] at hentry
    have htraced := hkept.traced entry hentry
    obtain ⟨found, hfound, hcurrency⟩ := htraced.currency
    constructor
    · exact ⟨found, hroutes _ _ hfound, hcurrency⟩
    · rw [hjournals]
      exact htraced.journal
    · rw [HasFirstLeg, hjournals]
      exact htraced.wallet.imp_left (hgrows _ _)

/-- What leaves cards and messages alone, keeps the routes and posts nothing. -/
theorem Kept.of_same (hkept : before.Kept) (hcards : after.cards = before.cards)
    (hroutes : ∀ transactionId, route after.db transactionId = route before.db transactionId)
    (hmessages : after.messages = before.messages)
    (hjournals : after.db.journals = before.db.journals)
    (hentries : after.db.entries = before.db.entries) : after.Kept := by
  apply hkept.extend
  · intro wallet currency hholds
    rw [Holds, hcards]
    exact hholds
  · rw [hcards]
    exact hkept.codes
  · intro transactionId found hfound
    rw [hroutes, hfound]
  · intro transactionId found hfound
    rw [hroutes] at hfound
    exact .inl hfound
  · intro message hmessage
    rw [hmessages]
    exact hmessage
  · intro message hmessage
    rw [hmessages] at hmessage
    exact .inl hmessage
  · exact hjournals
  · exact hentries

end

/-! ## Creating and pricing -/

section

variable {before after : Platform}

theorem Kept.openWallet {card : WalletCard} (hkept : before.Kept)
    (hstep : before.openWallet card = some after) : after.Kept := by
  unfold Platform.openWallet at hstep
  obtain ⟨hcode, hstep⟩ := Option.ite_none_right_eq_some.mp hstep
  split at hstep
  · rename_i wallets cards _ hinsert
    cases hstep
    obtain ⟨hfresh, hrows⟩ := Table.insert?_eq_some hinsert
    apply hkept.extend
    · rintro wallet currency ⟨held, hheld, hcurrency⟩
      refine ⟨held, ?_, hcurrency⟩
      show cards.find? wallet = some held
      have hne : wallet ≠ card.walletMsisdn := by
        intro hsame
        rw [Option.mem_def, hsame, hfresh] at hheld
        cases hheld
      rw [Table.find?_of_insert? hinsert, if_neg hne]
      exact hheld
    · intro held hheld
      rw [show held ∈ cards.rows ↔ held ∈ before.cards.rows ++ [card] by rw [hrows]] at hheld
      rcases List.mem_append.mp hheld with hold | hnew
      · exact hkept.codes held hold
      · rw [List.mem_singleton.mp hnew]
        exact hcode
    · exact fun _ _ hfound => hfound
    · exact fun _ _ hfound => .inl hfound
    · exact fun _ hmessage => hmessage
    · exact fun _ hmessage => .inl hmessage
    · rfl
    · rfl
  · cases hstep

/-- What `create` has checked when it inserts a request. -/
theorem create_eq_ok {dto : CreateTransactionDto} {transactionId : ℤ}
    (hcreate : before.create dto transactionId = .ok after) :
    ∃ request requests currency, request.transactionId = transactionId ∧
      request.sourceWalletId = some dto.sourceAccount ∧
      request.destWalletId = some dto.destinationAccount ∧ request.currency = some currency ∧
      isCode currency ∧
      (∃ card ∈ before.cards.find? dto.sourceAccount, normalized card.currency = currency) ∧
      (∃ card ∈ before.cards.find? dto.destinationAccount, normalized card.currency = currency) ∧
      before.db.requests.insert? request = some requests ∧
      after = { before with db := { before.db with requests := requests } } := by
  unfold Platform.create at hcreate
  split at hcreate
  · rename_i _ _ sourceCard destinationCard _ _ hsource hdestination
    split at hcreate
    · cases hcreate
    · simp only at hcreate
      split at hcreate
      · cases hcreate
      · rename_i hcode
        split at hcreate
        · cases hcreate
        · rename_i hmatch
          push Not at hmatch
          split at hcreate
          · rename_i requests hinsert
            cases hcreate
            exact ⟨_, requests, _, rfl, rfl, rfl, rfl, not_not.mp hcode,
              ⟨sourceCard, hsource, hmatch.1⟩, ⟨destinationCard, hdestination, hmatch.2⟩, hinsert,
              rfl⟩
          · cases hcreate
  · cases hcreate

theorem Kept.create {dto : CreateTransactionDto} {transactionId : ℤ} (hkept : before.Kept)
    (hcreate : before.create dto transactionId = .ok after) : after.Kept := by
  obtain ⟨request, requests, currency, hid, hsource, hdestination, hcurrency, hcode, hfrom, hto,
    hinsert, rfl⟩ := create_eq_ok hcreate
  have hholds : ∀ wallet, (∃ card ∈ before.cards.find? wallet, normalized card.currency = currency) →
      before.Holds wallet currency := by
    rintro wallet ⟨card, hcard, hnormalized⟩
    have hmem := (Table.find?_eq_some.mp hcard).1
    exact ⟨card, hcard, by rw [← hnormalized, normalized_of_isCode (hkept.codes card hmem)]⟩
  have hfresh := (Table.insert?_eq_some hinsert).1
  apply hkept.extend
  · exact fun _ _ hheld => hheld
  · exact hkept.codes
  · intro other found hfound
    rw [route, Option.map_eq_some_iff] at hfound
    obtain ⟨old, hold, hroute⟩ := hfound
    have hne : other ≠ request.transactionId := by
      intro hsame
      rw [hsame, hfresh] at hold
      cases hold
    show (requests.find? other).map routeOf = some found
    rw [Table.find?_of_insert? hinsert, if_neg hne, hold, Option.map_some, hroute]
  · intro other found hfound
    have hfound : (requests.find? other).map routeOf = some found := hfound
    rw [Table.find?_of_insert? hinsert] at hfound
    by_cases hsame : other = request.transactionId
    · rw [if_pos hsame] at hfound
      cases hfound
      right
      refine ⟨currency, hcurrency, hcode, ?_, ?_⟩
      · intro wallet hwallet
        rw [show (routeOf request).source = some dto.sourceAccount from hsource] at hwallet
        cases hwallet
        exact hholds _ hfrom
      · intro wallet hwallet
        rw [show (routeOf request).destination = some dto.destinationAccount from hdestination]
          at hwallet
        cases hwallet
        exact hholds _ hto
    · rw [if_neg hsame] at hfound
      exact .inl hfound
  · exact fun _ hmessage => hmessage
  · exact fun _ hmessage => .inl hmessage
  · rfl
  · rfl

/-- A published message draws on wallets of the currency of its payment. -/
theorem message_drawn {rules : Tariff} {cachedCharge cachedCommission : Option ℤ}
    {payment : Payment} {message : Message} (hcode : isCode payment.currency)
    (hmessage : (before.tariff rules cachedCharge cachedCommission).message payment =
      .ok message) :
    message.transactionId = payment.transactionId ∧ before.Drawn message payment.currency := by
  obtain ⟨charge, commission, hcharge, hcommission, rfl, _⟩ := Tariff.message_eq_ok hmessage
  refine ⟨rfl, ?_, ?_, ?_, ?_⟩
  · intro wallet hwallet
    cases charge with
    | none => cases hwallet
    | some result =>
      cases hwallet
      obtain ⟨code, hresolved⟩ := Tariff.charge_wallet hcharge.2
      rw [← normalized_of_isCode hcode]
      exact cachedOr_holds resolveSystemWallet_holds hresolved
  · intro hnone
    cases charge with
    | none => rfl
    | some result => cases hnone
  · intro wallet hwallet
    cases commission with
    | none => cases hwallet
    | some result =>
      cases hwallet
      obtain ⟨code, hresolved⟩ := Tariff.commission_wallet hcommission.2
      rw [← normalized_of_isCode hcode]
      exact cachedOr_holds systemWallet_holds hresolved
  · intro hnone
    cases commission with
    | none => rfl
    | some result => cases hnone

theorem route_update (platform : Platform) (transactionId status : ℤ)
    (fee commission : Option ℤ) (other : ℤ) :
    route (platform.update transactionId status fee commission).db other =
      route platform.db other := by
  unfold update
  apply route_updateRequest
  intro request
  rfl

theorem Kept.submit {payment : Payment} {rules : Tariff}
    {cachedCharge cachedCommission : Option ℤ} (hkept : before.Kept)
    (hstep : before.submit payment rules cachedCharge cachedCommission = some after) :
    after.Kept := by
  unfold Platform.submit at hstep
  obtain ⟨hprices, hstep⟩ := Option.ite_none_right_eq_some.mp hstep
  split at hstep
  · rename_i message hmessage
    cases hstep
    obtain ⟨request, hrequest, _, _, hcurrency⟩ := hprices
    have hroute : route before.db payment.transactionId = some (routeOf request) := by
      rw [route, Option.mem_def.mp hrequest]
      rfl
    obtain ⟨currency, hrouted⟩ := hkept.routed _ _ hroute
    have hsame : currency = payment.currency :=
      Option.some.inj (hrouted.ofCurrency.symm.trans hcurrency)
    obtain ⟨hid, hdrawn⟩ := message_drawn (hsame ▸ hrouted.code) hmessage
    apply hkept.extend
    · exact fun _ _ hheld => hheld
    · exact hkept.codes
    · intro transactionId found hfound
      exact (before.route_update _ _ _ _ _).trans hfound
    · intro transactionId found hfound
      exact .inl ((before.route_update _ _ _ _ _).symm.trans hfound)
    · exact fun _ hold => List.mem_append_left _ hold
    · intro other hother
      rcases List.mem_append.mp hother with hold | hnew
      · exact .inl hold
      · right
        rw [List.mem_singleton.mp hnew]
        refine ⟨routeOf request, payment.currency, ?_, hcurrency,
          hdrawn.grow fun _ _ hheld => hheld⟩
        rw [hid]
        exact (before.route_update _ _ _ _ _).trans hroute
    · rfl
    · rfl
  · cases hstep

end

/-! ## Posting -/

/-- The wallets that the amounts of a message name are of its currency. -/
theorem Drawn.names {platform : Platform} {message : Message} {currency : String}
    (hdrawn : platform.Drawn message currency) {request : Request} {terms : Terms} {wallet : ℤ}
    (hsource : platform.Holds terms.source currency)
    (hdestination : platform.Holds terms.destination currency)
    (hnames : Names (postingAmounts message.payload request terms.amount) terms wallet) :
    platform.Holds wallet currency := by
  rw [postingAmounts_payload] at hnames
  rcases hnames with hfrom | hto | ⟨hwallet, hpos⟩ | ⟨hwallet, hpos⟩
  · rw [hfrom]
    exact hsource
  · rw [hto]
    exact hdestination
  · cases hcharge : message.chargeWallet with
    | none => simp [hdrawn.uncharged hcharge] at hpos
    | some named =>
      rw [hwallet, hcharge]
      exact hdrawn.charge named hcharge
  · cases hcommission : message.commissionWallet with
    | none => simp [hdrawn.uncommissioned hcommission] at hpos
    | some named =>
      rw [hwallet, hcommission]
      exact hdrawn.commission named hcommission

theorem destination_of_terms {request : Request} {terms : Terms}
    (hterms : request.terms? = some terms) : request.destWalletId = some terms.destination := by
  unfold Request.terms? at hterms
  split at hterms
  · rename_i source destination amount _ hdestination _
    split at hterms
    · cases hterms
      exact hdestination
    · cases hterms
  · cases hterms

theorem postingCurrency_of_code {request : Request} {currency : String}
    (hcurrency : request.currency = some currency) (hcode : isCode currency) (payload : Payload) :
    postingCurrency request payload = currency := by
  have hne : currency ≠ "" := by
    rintro rfl
    exact absurd hcode (by decide)
  have hkept : (some currency).filter (· ≠ "") = some currency := by
    rw [Option.filter_some, if_pos (decide_eq_true hne)]
  rw [postingCurrency, hcurrency, hkept]
  exact toUpper_of_isCode hcode

section

variable {before : Platform} {after : Db} {call : Call} {request : Request} {terms : Terms}
  {plan : Plan} {journalId : ℕ} {posted entries : List Entry}

/-- The wallets that a message of the transaction names are of its currency. -/
theorem Kept.names (hkept : before.Kept) {currency : String}
    (hrouted : before.Routed (routeOf request) currency)
    (hfound : route before.db request.transactionId = some (routeOf request))
    (hterms : request.terms? = some terms) {message : Message} (hmessage : message ∈ before.messages)
    (hid : message.transactionId = request.transactionId) {wallet : ℤ}
    (hnames : Names (postingAmounts message.payload request terms.amount) terms wallet) :
    before.Holds wallet currency := by
  obtain ⟨found, drawn, hroute, hdrawnCurrency, hdrawn⟩ := hkept.sent message hmessage
  rw [hid, hfound] at hroute
  cases hroute
  have hsame : drawn = currency :=
    Option.some.inj (hdrawnCurrency.symm.trans hrouted.ofCurrency)
  rw [hsame] at hdrawn
  apply hdrawn.names _ _ hnames
  · exact hrouted.source _ (Request.source_of_terms hterms)
  · exact hrouted.destination _ (destination_of_terms hterms)

/-- The wallet of a line is of the currency of the request, unless it is the reserve. -/
theorem Kept.line_wallet (hkept : before.Kept) (hdelivered : before.Delivered call)
    (hplanned : Planned before.db call request terms plan) {currency : String}
    (hrouted : before.Routed (routeOf request) currency)
    (hfound : route before.db request.transactionId = some (routeOf request)) {line : Line}
    (hline : line ∈ plan.lines) :
    before.Holds line.wallet currency ∨ line.wallet = tempWallet ∧
      (plan.operation = .reserve ∨ before.HasFirstLeg request.transactionId) := by
  obtain ⟨_, horigin⟩ := line_origin hplanned hline
  cases horigin with
  | message hfirst hnames =>
    left
    have hoperation : call.operation? = some .direct ∨ call.operation? = some .reserve := by
      rw [hplanned.operation]
      exact hfirst.imp (congrArg some) (congrArg some)
    obtain ⟨message, hmessage, hpayload⟩ := hdelivered hoperation
    have hid : message.transactionId = request.transactionId := by
      have htransaction := hplanned.transaction
      rw [hpayload] at htransaction
      exact Option.some.inj htransaction
    rw [hpayload] at hnames
    exact hkept.names hrouted hfound hplanned.readTerms hmessage hid hnames
  | settled reservation hsettle hreservation hnames =>
    left
    obtain ⟨hmem, htransaction, hreserve⟩ := Db.findJournal_eq_some hreservation
    obtain ⟨message, hmessage, hpayload, hid⟩ := (hkept.firstLegs reservation hmem hreserve).message
    rw [hpayload] at hnames
    exact hkept.names hrouted hfound hplanned.readTerms hmessage (hid.trans htransaction) hnames
  | reserve htemp hleg =>
    right
    refine ⟨htemp, hleg.imp_right ?_⟩
    rintro ⟨_, hsome⟩
    obtain ⟨journal, hjournal⟩ := Option.isSome_iff_exists.mp hsome
    exact ⟨journal, Db.findJournal_eq_some hjournal⟩
  | givenBack entry hentry hjournal hwallet =>
    have htraced := hkept.traced entry hentry
    have htransaction : entry.transactionId = request.transactionId := by
      obtain ⟨journal, hmem, hid, hof⟩ := hjournal
      obtain ⟨own, hown, hownId, howner⟩ := htraced.journal
      have hsame : own = journal := before.db.journals.eq_of_serial_eq hown hmem
        (hownId.trans hid)
      rw [← howner, hsame, hof]
    obtain ⟨found, hroute, hcurrency⟩ := htraced.currency
    rw [htransaction, hfound] at hroute
    cases hroute
    have hsame : entry.currency = currency :=
      Option.some.inj (hcurrency.symm.trans hrouted.ofCurrency)
    rw [hwallet, ← hsame]
    refine htraced.wallet.imp_right fun htemp => ⟨htemp.1, .inr ?_⟩
    rw [← htransaction]
    exact htemp.2

/-- A committed plan keeps the invariant. -/
theorem Kept.committed (hkept : before.Kept) (hdelivered : before.Delivered call)
    (hplanned : Planned before.db call request terms plan)
    (hcommitted : Committed before.db plan journalId posted after)
    (hrecorded : Recorded ⟨plan.transactionId, journalId⟩ before.db after plan.lines entries) :
    Kept { before with db := after } := by
  have hroutes := route_committed hcommitted
  have hgrows : Grows before { before with db := after } := fun _ _ hholds => hholds
  have hfound : route before.db request.transactionId = some (routeOf request) := by
    rw [route, hplanned.found]
    rfl
  obtain ⟨currency, hrouted⟩ := hkept.routed _ _ hfound
  have hposting := postingCurrency_of_code hrouted.ofCurrency hrouted.code call.payload
  have hlegs : ∀ transactionId, before.HasFirstLeg transactionId →
      HasFirstLeg { before with db := after } transactionId := by
    rintro transactionId ⟨journal, hjournal, hof, hreserve⟩
    refine ⟨plan.closeJournal journal, ?_, ?_, ?_⟩
    · show plan.closeJournal journal ∈ after.journals.rows
      rw [hcommitted.journals]
      exact List.mem_append_left _ (List.mem_map_of_mem hjournal)
    · rw [Plan.closeJournal_transactionId, hof]
    · rw [Plan.closeJournal_operation, hreserve]
  have hnew : plan.journal journalId ∈ after.journals.rows := by
    rw [hcommitted.journals]
    exact List.mem_append_right _ List.mem_cons_self
  constructor
  · exact hkept.codes
  · intro transactionId found hroute
    obtain ⟨other, hother⟩ := hkept.routed transactionId found ((hroutes _).symm.trans hroute)
    exact ⟨other, hother.grow hgrows⟩
  · intro message hmessage
    obtain ⟨found, other, hroute, hcurrency, hdrawn⟩ := hkept.sent message hmessage
    exact ⟨found, other, (hroutes _).trans hroute, hcurrency, hdrawn.grow hgrows⟩
  · intro journal hjournal hreserve
    have hjournal : journal ∈ after.journals.rows := hjournal
    rw [hcommitted.journals] at hjournal
    rcases List.mem_append.mp hjournal with hold | hlast
    · obtain ⟨old, hmem, rfl⟩ := List.mem_map.mp hold
      rw [Plan.closeJournal_operation] at hreserve
      obtain ⟨⟨message, hmessage, hpayload, hid⟩, entry, hentry, hfacts⟩ :=
        hkept.firstLegs old hmem hreserve
      refine ⟨⟨message, hmessage, ?_, ?_⟩, entry, ?_, ?_⟩
      · rw [Plan.closeJournal_payload, hpayload]
      · rw [Plan.closeJournal_transactionId, hid]
      · show entry ∈ after.entries.rows
        rw [hrecorded.rows]
        exact List.mem_append_left _ hentry
      · rw [Plan.closeJournal_transactionId]
        exact hfacts
    · rw [List.mem_singleton.mp hlast] at hreserve ⊢
      have hoperation : plan.operation = .reserve := hreserve
      obtain ⟨message, hmessage, hpayload⟩ := hdelivered
        (.inr (by rw [hplanned.operation, hoperation]))
      have hplan := hplanned.planned
      rw [hoperation] at hplan
      obtain ⟨_, hshape⟩ := planPosting_eq_ok (planFirstLeg_eq_ok hplan).2
      refine ⟨⟨message, hmessage, ?_, ?_⟩, ?_⟩
      · show plan.payload = message.payload
        rw [hshape, ← hpayload]
      · show message.transactionId = plan.transactionId
        have htransaction := hplanned.transaction
        rw [hpayload] at htransaction
        rw [hplanned.transactionId]
        exact Option.some.inj htransaction
      · have htemp : ∃ line ∈ plan.lines, line.wallet = tempWallet := by
          rw [hshape]
          exact ⟨_, List.mem_cons_of_mem _ List.mem_cons_self, rfl⟩
        obtain ⟨line, hline, hwallet⟩ := htemp
        obtain ⟨entry, hentry, hrecords⟩ := hrecorded.of_line line hline
        refine ⟨entry, ?_, hrecords.wallet.trans hwallet, hrecords.transaction⟩
        show entry ∈ after.entries.rows
        rw [hrecorded.rows]
        exact List.mem_append_right _ hentry
  · intro entry hentry
    have hentry : entry ∈ after.entries.rows := hentry
    rw [hrecorded.rows] at hentry
    rcases List.mem_append.mp hentry with hold | hadded
    · have htraced := hkept.traced entry hold
      obtain ⟨found, hroute, hcurrency⟩ := htraced.currency
      obtain ⟨journal, hjournal, hid, hof⟩ := htraced.journal
      refine ⟨⟨found, (hroutes _).trans hroute, hcurrency⟩,
        ⟨plan.closeJournal journal, ?_, ?_, ?_⟩, ?_⟩
      · show plan.closeJournal journal ∈ after.journals.rows
        rw [hcommitted.journals]
        exact List.mem_append_left _ (List.mem_map_of_mem hjournal)
      · rw [Plan.closeJournal_id, hid]
      · rw [Plan.closeJournal_transactionId, hof]
      · exact htraced.wallet.imp_right fun htemp => ⟨htemp.1, hlegs _ htemp.2⟩
    · obtain ⟨line, hline, hrecords⟩ := hrecorded.of_entry entry hadded
      obtain ⟨hlineCurrency, _⟩ := line_origin hplanned hline
      have htransaction : entry.transactionId = request.transactionId :=
        hrecords.transaction.trans hplanned.transactionId
      have hcurrency : entry.currency = currency := by
        rw [hrecords.currency, hlineCurrency, hposting]
      refine ⟨⟨routeOf request, ?_, ?_⟩, ⟨plan.journal journalId, hnew, ?_, ?_⟩, ?_⟩
      · rw [htransaction]
        exact (hroutes _).trans hfound
      · rw [hcurrency]
        exact hrouted.ofCurrency
      · exact hrecords.journal.symm
      · exact hrecords.transaction.symm
      · rw [hrecords.wallet, hcurrency]
        refine (hkept.line_wallet hdelivered hplanned hrouted hfound hline).imp_right fun htemp =>
          ⟨htemp.1, ?_⟩
        rw [htransaction]
        rcases htemp.2 with hreserve | hleg
        · exact ⟨plan.journal journalId, hnew, hplanned.transactionId, hreserve⟩
        · exact hlegs _ hleg

end

/-- Every step keeps the invariant. -/
theorem Kept.step {before after : Platform} {event : Event} (hkept : before.Kept)
    (hstep : before.step event = some after) : after.Kept := by
  cases event with
  | openWallet card => exact hkept.openWallet hstep
  | changeWallet msisdn amount status =>
    cases hstep
    exact hkept.of_same rfl (fun _ => rfl) rfl rfl rfl
  | create dto transactionId =>
    simp only [Platform.step] at hstep
    cases hcreate : before.create dto transactionId with
    | error text =>
      rw [hcreate] at hstep
      cases hstep
    | ok created =>
      rw [hcreate] at hstep
      cases hstep
      exact hkept.create hcreate
  | submit payment rules cachedCharge cachedCommission => exact hkept.submit hstep
  | update transactionId status fee commission =>
    cases hstep
    exact hkept.of_same rfl (before.route_update _ _ _ _) rfl rfl rfl
  | deliver call =>
    simp only [Platform.step, Option.ite_none_right_eq_some, Option.map_eq_some_iff,
      Prod.exists] at hstep
    obtain ⟨hdelivered, result, committed, hcall, rfl⟩ := hstep
    rcases call_cases hcall with hquiet | hposted
    · exact hkept.of_same rfl (route_quiet hquiet) rfl hquiet.journals hquiet.entries
    · obtain ⟨request, terms, plan, journalId, posted, entries, hplanned, hcommitted,
        hrecorded⟩ := hposted
      exact hkept.committed hdelivered hplanned hcommitted hrecorded

/-! ## Runs from an opening -/

theorem Opening.kept {start : Platform} (hopening : start.Opening) : start.Kept where
  codes := hopening.codes
  routed := by
    intro transactionId found hroute
    obtain ⟨request, hrequest, _⟩ := Option.map_eq_some_iff.mp hroute
    have hmem := (Table.find?_eq_some.mp hrequest).1
    rw [hopening.requests] at hmem
    cases hmem
  sent := by simp [hopening.messages]
  firstLegs := by simp [hopening.empty.no_journals]
  traced := by simp [hopening.empty.no_entries]

/-- Entries are in the currency of their wallets exactly where first legs are posted in that of
the reserve. -/
theorem Kept.currenciesKept_iff {platform : Platform} (hkept : platform.Kept) :
    platform.CurrenciesKept ↔ platform.ReservesInCurrency := by
  constructor
  · intro hcurrencies request hrequest hleg currency hcurrency
    obtain ⟨journal, hjournal⟩ := Option.isSome_iff_exists.mp hleg
    obtain ⟨hmem, htransaction, hreserve⟩ := Db.findJournal_eq_some hjournal
    obtain ⟨entry, hentry, htemp, hof⟩ := (hkept.firstLegs journal hmem hreserve).entry
    obtain ⟨found, hroute, hfound⟩ := (hkept.traced entry hentry).currency
    rw [hof, htransaction, route, Table.find?_key hrequest, Option.map_some] at hroute
    cases hroute
    have hsame : entry.currency = currency :=
      Option.some.inj (hfound.symm.trans hcurrency)
    rw [← htemp, ← hsame]
    exact hcurrencies.entries entry hentry
  · intro hreserves
    have hentries : ∀ entry ∈ platform.db.entries.rows,
        platform.Holds entry.accountNumber entry.currency := by
      intro entry hentry
      have htraced := hkept.traced entry hentry
      rcases htraced.wallet with hholds | ⟨htemp, journal, hjournal, hof, hreserve⟩
      · exact hholds
      · obtain ⟨found, hroute, hcurrency⟩ := htraced.currency
        obtain ⟨request, hrequest, rfl⟩ := Option.map_eq_some_iff.mp hroute
        obtain ⟨hmem, hid⟩ := Table.find?_eq_some.mp hrequest
        rw [htemp]
        apply hreserves request hmem _ _ hcurrency
        rw [Option.isSome_iff_ne_none, ne_eq, Db.findJournal_eq_none]
        intro hnone
        exact hnone journal hjournal ⟨hof.trans hid.symm, hreserve⟩
    constructor
    · exact hentries
    · intro currency
      rw [currencyMismatches, List.filter_eq_nil_iff]
      intro entry hentry hmismatch
      obtain ⟨hcurrency, card, hcard, hdiffers⟩ := of_decide_eq_true hmismatch
      obtain ⟨held, hheld, hsame⟩ := hentries entry hentry
      rw [Option.mem_def.mp hcard] at hheld
      cases hheld
      have hcode := hkept.codes card (Table.find?_eq_some.mp hcard).1
      rw [toUpper_of_isCode hcode, hsame] at hdiffers
      exact hdiffers hcurrency
    · intro first hfirst second hsecond hwallet
      obtain ⟨card, hcard, hcurrency⟩ := hentries first hfirst
      obtain ⟨other, hother, hsame⟩ := hentries second hsecond
      rw [hwallet, Option.mem_def.mp hother] at hcard
      cases hcard
      rw [← hcurrency, hsame]

/-- In every run entries are in the currency of their wallets exactly as long as first legs are
posted in that of the temporary reserve. -/
theorem entries_in_currency_iff {start platform : Platform} (hopening : start.Opening)
    (hrun : Reaches Platform.step start platform) :
    platform.CurrenciesKept ↔ platform.ReservesInCurrency := by
  have hkept : platform.Kept := by
    apply Reaches.preserves Kept _ hrun hopening.kept
    intro before event after hbefore hstep
    exact hbefore.step hstep
  exact hkept.currenciesKept_iff

/-- Two customers with wallets in pounds, and a reserve in shillings. -/
def reserveInShillings : Platform where
  db := .opening ⟨[{ walletMsisdn := 7, amount := 5000 }, { walletMsisdn := 8, amount := 0 },
    { walletMsisdn := tempWallet, amount := 0 }], by decide⟩ .empty
  cards := ⟨[{ walletMsisdn := 7, walletCode := 103, currency := "GBP" },
    { walletMsisdn := 8, walletCode := 103, currency := "GBP" },
    { walletMsisdn := tempWallet, walletCode := 105, currency := "UGX" }], by decide⟩
  walletTypes := [103, 105, 113, 114]
  messages := []

theorem reserveInShillings_opening : reserveInShillings.Opening where
  empty := Db.opening_initial _ _
  requests := rfl
  messages := rfl
  codes := by decide

theorem tenPounds_pos : (0 : ℤ) < 1000 := by decide

def tenPounds : PaymentAmount where
  number := 10
  cents := 1000
  cents_pos := tenPounds_pos
  number_ge := by norm_num

/-- A payment of ten pounds without charge or commission. -/
def plainPayment : Payment where
  transactionId := 1
  sourceAccount := 7
  destinationAccount := 8
  amount := tenPounds
  keyword := "SEND"
  currency := "GBP"
  sourceWalletType := 103
  destinationWalletType := 103
  chargeable := false
  chargeLookup := .source
  commissionable := false
  commissionLookup := .source

/-- Rules without any flow or configuration. -/
def noRules : Tariff where
  flows := []
  chargeConfiguration _ _ _ := .error "Active charge configuration not found"
  commissionConfiguration _ _ _ := .error "Active commission configuration not found"
  chargeWallet _ _ := .error ""
  commissionWallet _ _ := .error ""

/-- The payment is created and submitted, and its message posted in a mode. -/
def pay (mode : ModeText) : List Event :=
  [.create { sourceAccount := 7, destinationAccount := 8, amount := tenPounds } 1,
    .submit plainPayment noRules none none,
    .deliver
      { payload :=
          { transactionId := some 1
            source := some 7
            destination := some 8
            amount := some (moneyToNumeric 1000)
            currency := some "GBP"
            chargeAmount := some (moneyToNumeric 0)
            commissionAmount := some (moneyToNumeric 0)
            sourceDebitAmount := some (moneyToNumeric 1000)
            destinationCreditAmount := some (moneyToNumeric 1000)
            chargeWalletCredit := some (moneyToNumeric 0)
            commissionWalletDebit := some (moneyToNumeric 0)
            sourceCommissionCredit := some (moneyToNumeric 0)
            destinationCommissionCredit := some (moneyToNumeric 0) }
        mode := some mode }]

/-- A direct posting leaves its two entries in pounds. -/
theorem entries_in_currency_iff_direct :
    ∃ platform, Reaches Platform.step reserveInShillings platform ∧
      platform.db.entries.rows.map (fun entry => (entry.accountNumber, entry.currency)) =
        [(7, "GBP"), (8, "GBP")] ∧
      (platform.CurrenciesKept ↔ platform.ReservesInCurrency) := by
  have hany : (runInputs Platform.step reserveInShillings (pay .direct)).any (fun platform =>
      platform.db.entries.rows.map (fun entry => (entry.accountNumber, entry.currency)) =
        [(7, "GBP"), (8, "GBP")]) := by
    decide +kernel
  obtain ⟨platform, hrun, hfacts⟩ := (Option.any_eq_true _ _).mp hany
  have hreach := Reaches.of_runInputs hrun
  have hentries := of_decide_eq_true hfacts
  exact ⟨platform, hreach, hentries, entries_in_currency_iff reserveInShillings_opening hreach⟩

/-- A first leg leaves pounds on the reserve in shillings, and the close of the pound finds the
mismatch. -/
theorem first_leg_in_other_currency :
    reserveInShillings.Opening ∧
      ∃ platform, Reaches Platform.step reserveInShillings platform ∧
        platform.db.entries.rows.map (fun entry => (entry.accountNumber, entry.currency)) =
          [(7, "GBP"), (tempWallet, "GBP")] ∧
        (platform.cards.find? tempWallet).map WalletCard.currency = some "UGX" ∧
        platform.currencyMismatches "GBP" ≠ [] ∧ ¬ platform.CurrenciesKept := by
  refine ⟨reserveInShillings_opening, ?_⟩
  have hany : (runInputs Platform.step reserveInShillings (pay .twoLeg)).any (fun platform =>
      platform.db.entries.rows.map (fun entry => (entry.accountNumber, entry.currency)) =
          [(7, "GBP"), (tempWallet, "GBP")] ∧
        (platform.cards.find? tempWallet).map WalletCard.currency = some "UGX" ∧
        platform.currencyMismatches "GBP" ≠ []) := by
    decide +kernel
  obtain ⟨platform, hrun, hfacts⟩ := (Option.any_eq_true _ _).mp hany
  obtain ⟨hentries, hreserve, hmismatch⟩ := of_decide_eq_true hfacts
  exact ⟨platform, Reaches.of_runInputs hrun, hentries, hreserve, hmismatch,
    fun hkept => hmismatch (hkept.unblocked "GBP")⟩

end Platform

end Finify.Pricing
