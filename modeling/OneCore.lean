import OneCore.Ble.Resource
import OneCore.Did.HostileLog
import OneCore.Did.Resolver
import OneCore.Did.WebVhLog
import OneCore.Holder.DisclosedClaims
import OneCore.IsoMdl.Soundness
import OneCore.Mdoc.Disclosure
import OneCore.Mdoc.RoundTrip
import OneCore.Oid4vci.FailedIssuance
import OneCore.Oid4vci.Refresh
import OneCore.Oid4vci.SingleUse
import OneCore.Oid4vci.TxCode
import OneCore.Oid4vci.WalletAttestation
import OneCore.Openid4vp.Cardinality
import OneCore.Openid4vp.ClaimSets
import OneCore.Openid4vp.Completeness
import OneCore.Openid4vp.HolderBinding
import OneCore.Openid4vp.TokenPath
import OneCore.Openid4vp.TypeSoundness
import OneCore.Revocation.Finality
import OneCore.Revocation.TokenReading
import OneCore.Verifier.DirectPost
import OneCore.WalletProvider.StaysRevoked
import OneCore.Xades.Binding
import OneCore.IsoMdl.Transfer
import OneCore.Nfc.Apdu
import OneCore.Proximity.Decoders
import OneCore.SdJwt.KeyBinding
import OneCore.SdJwt.Clean
import OneCore.SdJwt.Subtree
import OneCore.SdJwt.ConvertedClaims
