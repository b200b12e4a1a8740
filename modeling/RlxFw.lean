import RlxFw.ByteMap
import RlxFw.Sha256b
import RlxFw.Container
import RlxFw.ContainerSpec
import RlxFw.ContainerReads
import RlxFw.Counter
import RlxFw.Slots
import RlxFw.SlotSelection
import RlxFw.InstallOrder
import RlxFw.Emission
import RlxFw.InstallParse
import RlxFw.SpiContainment
import RlxFw.Crc32
import RlxFw.Schema
import RlxFw.CfgRoundTrip
import RlxFw.StoreTorn
import RlxFw.Writers
import RlxFw.CfgCanonical
import RlxFw.StoreLoad
import RlxFw.LastWriter
import RlxFw.CounterAdvance
import RlxFw.SessionCreate
import RlxFw.Lockout
import RlxFw.UpdateStaging
import RlxFw.UpdateBoots
import RlxFw.InstallAgreement
import RlxFw.Authorisation
import RlxFw.HashUnseen
import RlxFw.SessionHash
import RlxFw.CounterReport
import RlxFw.ProtoRx
import RlxFw.Entropy
import RlxFw.DnsAnswers
import RlxFw.DnsLan
import RlxFw.KdfGrant
import RlxFw.IfupdRoutes
import RlxFw.NicNapi
import RlxFw.NicQueue
import RlxFw.NicDelivery
import RlxFw.HttpSegments
import RlxFw.BrokerLoop
import RlxFw.LanPool
import RlxFw.IfupdHostile
import RlxFw.HttpBucketRate
import RlxFw.ProtoCodec
import RlxFw.BootText
import RlxFw.SetAtomic
import RlxFw.BuilderAgreement
import RlxFw.NodeAgreement
import RlxFw.ConfigRoundTrip
import RlxFw.Passwords
import RlxFw.SuperviseRuns
import RlxFw.CounterMonotone
import RlxFw.WriteBudget
import RlxFw.WrPolicyWords
import RlxFw.InstallGrammar
import RlxFw.HttpPath
import RlxFw.HttpGate
import RlxFw.UploadForwards
import RlxFw.FlashRule
import RlxFw.UdhcpdConf
import RlxFw.DeliveredInstall
import RlxFw.WritersAgree
import RlxFw.DottedQuad
import RlxFw.CfgText
import RlxFw.CfgTextRoundTrip
import RlxFw.QuadParsers
import RlxFw.RouterLists
import RlxFw.Tokens
import RlxFw.ResolverList
import RlxFw.DnsNames
import RlxFw.DnsErrorSize
import RlxFw.DnsTiling
import RlxFw.JsonGrammar
import RlxFw.JsonRefusal
import RlxFw.JsonRoundTrip
import RlxFw.SpictlReads
import RlxFw.KdfAgreement
import RlxFw.EntropyCredit
import RlxFw.KeysReports
import RlxFw.KeysBounces
import RlxFw.WdtRuns
import RlxFw.TlvInverse
import RlxFw.CrcBursts
import RlxFw.ScalarCheck
import RlxFw.UpdateCycle
import RlxFw.BkCallOnce
import RlxFw.PasswordWriters
import RlxFw.SessionHonoured
import RlxFw.HttpAnswers
import RlxFw.LoginTokens
