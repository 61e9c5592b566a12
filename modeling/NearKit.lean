import NearKit.BorshReader
import NearKit.BorshCodec
import NearKit.BorshPrimitives
import NearKit.BorshVariants
import NearKit.SortedMaps
import NearKit.Keys
import NearKit.WireFormats
import NearKit.Actions
import NearKit.ActionFormats
import NearKit.Base64Text
import NearKit.Errors
import NearKit.Transactions
import NearKit.SigningDomains
import NearKit.VersionedDecoding
import NearKit.WireRoundTrips
import NearKit.NonceManager
import NearKit.Processes
import NearKit.TransactionOperations
import NearKit.RetryBudget
import NearKit.ClientHistories
import NearKit.SendNonces
import NearKit.Tickets
import NearKit.SharedNonces
import NearKit.RpcCalls
import NearKit.LostResponses
import NearKit.RetrySchedules
import NearKit.TransactionBuilders
import NearKit.BuilderChains
import NearKit.BuilderOutcomes
import NearKit.ChainReceivers
import NearKit.Base58Text
import NearKit.KeyTexts
import NearKit.SecretKeys
import NearKit.PublicKeyOrigins
import NearKit.HexText
import NearKit.SigningKeys
import NearKit.SignedMessages
import NearKit.DebugText
import NearKit.FunctionCallErrors
import NearKit.NestedActions
import NearKit.NestedDecoding
import NearKit.ActionViews
import NearKit.KeyCustody
import NearKit.NoNestedDelegates
import NearKit.SharedSigners
import NearKit.Pagination
import NearKit.PagedViews
import NearKit.PagedReads
import NearKit.Numerals
import NearKit.TextShapes
import NearKit.HdPaths
import NearKit.ActionViewFields
import NearKit.NonceWindows
import NearKit.SignatureTexts
import NearKit.AmountTexts
import NearKit.AmountGrammar
import NearKit.TokenAmounts
import NearKit.JsonDecoding
import NearKit.TransactionErrors
import NearKit.RpcErrorParsing
import NearKit.HttpClassification
import NearKit.TransactionResponses
import NearKit.RejectedResponses
import NearKit.DebugStrings
import NearKit.KeyRotation
import NearKit.SuppliedNumbers
import NearKit.TextSearch
import NearKit.PercentEncoding
import NearKit.UrlReferences
import NearKit.SanitizedUrls
import NearKit.WasiUrls
import NearKit.PerKeyQueues
import NearKit.MetaTransactions
import NearKit.OnceCells
import NearKit.FungibleTokens
import NearKit.RpcMethods
import NearKit.DerivedKeys
import NearKit.LogIns
import NearKit.OwnedResources
import NearKit.WasiExchanges
import NearKit.WasiCalls
import NearKit.ContractInterfaces
import NearKit.ContractClients
import NearKit.Lockstep
import NearKit.KeyIsolation
