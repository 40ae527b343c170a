import FishMarket.Status
import FishMarket.Text.Decimal

/-! # Failures

Why a request is not carried out. Failures are kept as causes; the wording of each, the code it is
sent with and the status of the response are functions of the cause. Causes that lie inside the
service itself have a wording too, but it is never sent: the response only says that there was an
internal error.
-/

namespace FishMarket

open Text (decimal)

/-- Why the body of a request could not be read. -/
inductive BodyFault where
  /-- The request does not say that its body is JSON. -/
  | contentType
  | malformed
  | mismatch
  | tooLong
deriving DecidableEq, Repr

/-- What is wrong with the content of a request. -/
inductive InputFault where
  | unknownAuctionStatus (text : String)
  | unknownItemStatus (text : String)
  | emptyVenueName
  | createdEnded (status : AuctionStatus)
  | endNotAfterStart
  | emptyFishOrUnit
  | quantityNotPositive
  | createdSold
  | itemIdNotPositive
  | buyerIdNotPositive
  | priceNotPositive
  | body (fault : BodyFault)
  | stated (text : String)
deriving DecidableEq, Repr

/-- What was looked for and is not there. -/
inductive Subject where
  | venue (id : Int)
  | auction (id : Int)
  | item (id : Int)
  | buyer (id : Int)
  | fisherman (id : Int)
  /-- A row that a statement had to return. -/
  | requested
  | stated (text : String)
deriving DecidableEq, Repr

/-- How a request collides with what is stored. -/
inductive Collision where
  | venueMissing (id : Int)
  | auctionOrFishermanMissing
  | itemOrBuyerMissing
  | itemDeleted (id : Int)
  | venueHasBids (id : Int)
  | auctionHasBids (id : Int)
  /-- The auction has ended, and its status was to be changed. -/
  | transition (current target : AuctionStatus)
  /-- The auction ended while its status was being changed. -/
  | auctionEnded (id : Int) (status : AuctionStatus)
  | itemSold (id : Int)
  | stated (text : String)
deriving DecidableEq, Repr

/-- Why the sender of a request is not known. -/
inductive SessionFault where
  | buyerMissing
  | adminMissing
  | buyerUnknown
  | stated (text : String)
deriving DecidableEq, Repr

/-- What is wrong with the settings of the service. -/
inductive SettingsFault where
  | missing (name : String)
  | invalid (name : String) (reason : String)
deriving DecidableEq, Repr

/-- What went wrong inside the service. -/
inductive Breakdown where
  | totalTooLarge (buyer : Int)
  | taxedTooLarge (total : Int)
  /-- The next bid was to be refused, on demand. -/
  | bidRefused
  | settings (fault : SettingsFault)
  /-- The database reported an error that is none of the request's making. -/
  | database
  | stated (text : String)
deriving DecidableEq, Repr

/-- Why a request is not carried out. -/
inductive Failure where
  | validation (fault : InputFault)
  | notFound (subject : Subject)
  | conflict (collision : Collision)
  | unauthorized (fault : SessionFault)
  | internal (breakdown : Breakdown)
deriving DecidableEq, Repr

/-! ## Wording -/

/-- The wording of a fault in a body. -/
def BodyFault.message : BodyFault → String
  | contentType => "Expected request with `Content-Type: application/json`"
  | malformed => "Failed to parse the request body as JSON"
  | mismatch => "Failed to deserialize the JSON body into the target type"
  | tooLong => "Failed to buffer the request body: length limit exceeded"

/-- The wording of a fault in a request. -/
def InputFault.message : InputFault → String
  | unknownAuctionStatus text => "알 수 없는 경매 상태입니다: " ++ text
  | unknownItemStatus text => "알 수 없는 상품 상태입니다: " ++ text
  | emptyVenueName => "경매장 이름이 비어 있습니다."
  | createdEnded status => status.name ++ " 상태로 경매를 생성할 수 없습니다."
  | endNotAfterStart => "종료 시각은 시작 시각보다 늦어야 합니다."
  | emptyFishOrUnit => "어종과 단위는 필수입니다."
  | quantityNotPositive => "수량은 0보다 커야 합니다."
  | createdSold => "낙찰 상태로 상품을 등록할 수 없습니다."
  | itemIdNotPositive => "item_id는 0보다 커야 합니다."
  | buyerIdNotPositive => "buyer_id는 0보다 커야 합니다."
  | priceNotPositive => "입찰 금액은 0보다 커야 합니다."
  | body fault => fault.message
  | stated text => text

/-- The name of what was looked for. -/
def Subject.message : Subject → String
  | venue id => "경매장 " ++ decimal id
  | auction id => "경매 " ++ decimal id
  | item id => "상품 " ++ decimal id
  | buyer id => "구매자 " ++ decimal id
  | fisherman id => "어민 " ++ decimal id
  | requested => "요청한 데이터"
  | stated text => text

/-- The wording of a collision. -/
def Collision.message : Collision → String
  | venueMissing id => "경매장 " ++ decimal id ++ "이(가) 존재하지 않습니다."
  | auctionOrFishermanMissing => "경매 또는 어민이 존재하지 않습니다."
  | itemOrBuyerMissing => "상품 또는 구매자가 존재하지 않습니다."
  | itemDeleted id => "상품 " ++ decimal id ++ "이(가) 삭제되었습니다."
  | venueHasBids id => "경매장 " ++ decimal id ++ "의 상품에 입찰 기록이 있습니다."
  | auctionHasBids id => "경매 " ++ decimal id ++ "의 상품에 입찰 기록이 있습니다."
  | transition current target =>
    current.name ++ " 상태의 경매는 " ++ target.name ++ "(으)로 변경할 수 없습니다."
  | auctionEnded id status =>
    "경매 " ++ decimal id ++ "은(는) 이미 " ++ status.name ++ " 상태입니다."
  | itemSold id => "낙찰된 상품 " ++ decimal id ++ "의 상태는 되돌릴 수 없습니다."
  | stated text => text

/-- The wording of a missing or unknown session. -/
def SessionFault.message : SessionFault → String
  | buyerMissing => "구매자 세션이 없습니다."
  | adminMissing => "관리자 세션이 없습니다."
  | buyerUnknown => "알 수 없는 구매자입니다."
  | stated text => text

/-- The wording of a fault in the settings. -/
def SettingsFault.message : SettingsFault → String
  | missing name => "필수 환경 변수가 없습니다: " ++ name
  | invalid name reason => "환경 변수 " ++ name ++ " 값이 잘못되었습니다: " ++ reason

/-- The wording of a breakdown; an error of the database has none of its own. -/
def Breakdown.message? : Breakdown → Option String
  | totalTooLarge buyer =>
    some ("내부 오류: 구매자 " ++ decimal buyer ++ "의 합계가 범위를 넘었습니다.")
  | taxedTooLarge total =>
    some ("내부 오류: 세금 포함 금액이 범위를 넘었습니다: " ++ decimal total)
  | bidRefused => some "내부 오류: 입찰 기록 추가 실패 (주입된 장애)"
  | settings fault => some fault.message
  | database => none
  | stated text => some ("내부 오류: " ++ text)

/-- The sorts of failures that a caller can tell apart. -/
inductive FailureKind where
  | validation
  | notFound
  | conflict
  | unauthorized
  | internal
deriving DecidableEq, Repr

/-- The code that is sent for a kind of failure. -/
def FailureKind.code : FailureKind → String
  | validation => "VALIDATION"
  | notFound => "NOT_FOUND"
  | conflict => "CONFLICT"
  | unauthorized => "UNAUTHORIZED"
  | internal => "INTERNAL"

/-- The status of the response to a request that fails. -/
def FailureKind.status : FailureKind → Nat
  | validation => 400
  | notFound => 404
  | conflict => 409
  | unauthorized => 401
  | internal => 500

namespace Failure

/-- The kind of a failure. -/
def kind : Failure → FailureKind
  | validation _ => .validation
  | notFound _ => .notFound
  | conflict _ => .conflict
  | unauthorized _ => .unauthorized
  | internal _ => .internal

/-- The full wording of a failure, where it has one. -/
def message? : Failure → Option String
  | validation fault => some ("잘못된 요청입니다: " ++ fault.message)
  | notFound subject => some (subject.message ++ "을(를) 찾을 수 없습니다.")
  | conflict collision => some ("요청이 현재 상태와 충돌합니다: " ++ collision.message)
  | unauthorized fault => some ("인증이 필요합니다: " ++ fault.message)
  | internal breakdown => breakdown.message?

/-- What the sender of a request is told. Nothing of a breakdown is given away. -/
def publicMessage : Failure → String
  | validation fault => "잘못된 요청입니다: " ++ fault.message
  | notFound subject => subject.message ++ "을(를) 찾을 수 없습니다."
  | conflict collision => "요청이 현재 상태와 충돌합니다: " ++ collision.message
  | unauthorized fault => "인증이 필요합니다: " ++ fault.message
  | internal _ => "Internal server error"

end Failure

end FishMarket
